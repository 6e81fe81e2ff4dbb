import IamRust.L6Client.Schedule
import IamRust.L6Client.Versions

/-!
# Searching the cache

`search_messages` reads the rows whose `kind` is that of a text or a notice, in
the order of their columns, and looks at the payloads. `cache_messages` writes
`kind` and `created_at` when it makes a row and never again, the payload every
time. The Unicode lower case is a parameter.

* `search_scans`: a search finds what a scan of all payloads finds, in its
  order, after any calls of `cache_messages` whose messages suit the columns
  their rows have.
* `recalled_image_not_found`: an image that is recalled becomes a notice no
  search finds.
-/
namespace IamRust

open Core

/-! ## The search -/

/-- The body of a text or a notice. -/
def MessageContent.body? : MessageContent → Option String
  | .text body | .system body => some body
  | _ => none

/-- `kind IN ('text', 'system')`. -/
def CachedMessage.searchable {π : Type} (row : CachedMessage π) : Bool :=
  row.kind == "text" || row.kind == "system"

/-- `ORDER BY COALESCE(sequence, 9223372036854775807) DESC, created_at DESC`. -/
def CachedMessage.newer {π : Type} (a b : CachedMessage π) : Prop :=
  b.sequence.getD i64Max < a.sequence.getD i64Max ∨
    (b.sequence.getD i64Max = a.sequence.getD i64Max ∧ b.createdAt ≤ a.createdAt)

instance {π : Type} : DecidableRel (CachedMessage.newer (π := π)) :=
  fun _ _ => inferInstanceAs (Decidable (_ ∨ _))

section
variable (lowercase : String → String)

/-- `body.to_lowercase().contains(&query)`. -/
def Message.matchesQuery (query : String) (message : Message) : Bool :=
  message.content.body?.any fun body => decide (query.toList <:+: (lowercase body).toList)

/-- The key is that of the cache, so that every payload is read.
mirrors crates/client-core/src/lib.rs:347-381 -/
def searchMessages (s : Cache) (query : String) (limit : Nat) : Except String (List Message) :=
  let query := Text.trim query
  if query.isEmpty ∨ 200 < query.toList.length ∨ ¬ (1 ≤ limit ∧ limit ≤ 100) then
    .error "message search query is invalid"
  else
    let rows := ((s.messages.values.filter (·.searchable)).insertionSort
      CachedMessage.newer).take 10000
    .ok (((rows.map (·.payload)).filter (·.matchesQuery lowercase (lowercase query))).take limit)

/-! ## The scan -/

/-- Descending by sequence, a message without one first, then descending by creation time. -/
def Message.newer (a b : Message) : Prop :=
  match a.sequence, b.sequence with
  | none, some _ => True
  | some _, none => False
  | some m, some n => n < m ∨ (n = m ∧ b.createdAt ≤ a.createdAt)
  | none, none => b.createdAt ≤ a.createdAt

/-- `found` are the first `limit` of all cached messages that match, the newest first. -/
def LocalStore.Scans (s : Cache) (query : String) (limit : Nat) (found : List Message) : Prop :=
  ∃ l : List Message, l.Perm ((s.messages.values.map (·.payload)).filter
      (·.matchesQuery lowercase (lowercase (Text.trim query)))) ∧
    l.Pairwise Message.newer ∧ found = l.take limit

end

/-! ## The condition -/

/-- The columns are those of the payload, as far as a search reads them. -/
structure CachedMessage.Suits (row : CachedMessage Message) (message : Message) : Prop where
  createdAt : row.createdAt = toRfc3339 message.createdAt
  searchable : message.content.body?.isSome = true → row.searchable = true

/-- A message that has a row suits its columns; its time can be compared as text, and its sequence
is not what stands for none. -/
structure LocalStore.Suits (s : Cache) (message : Message) : Prop where
  fourDigits : message.createdAt.FourDigits
  sequence : message.sequence ≠ some i64Max
  row : ∀ row, s.messages.get message.id = some row → row.Suits message

/-- Each message suits when it is written. -/
def LocalStore.SuitsAll (keyed : Bool) : List Message → Cache → Prop
  | [], _ => True
  | message :: messages, s => s.Suits message ∧
      SuitsAll keyed messages (s.cached toRfc3339 keyed message message)

/-- The calls of `cache_messages`, whether they succeed or not, from a cache without messages. -/
def caching (keyed : Bool) : LTS Cache (List Message) where
  init s := s.messages = .empty
  step s messages s' := s' = ((cacheMessages toRfc3339 keyed messages).commit s).2

/-- If the call succeeds, its messages suit. -/
def SuitsCall (keyed : Bool) (s : Cache) (messages : List Message) : Prop :=
  ∀ s', (cacheMessages toRfc3339 keyed messages).Runs s () s' → s.SuitsAll keyed messages

/-! ## The columns -/

/-- The row has the columns of its payload, as far as a search reads them. -/
structure CachedMessage.Current (row : CachedMessage Message) : Prop where
  sequence : row.sequence = row.payload.sequence
  small : ∀ n, row.sequence = some n → n < i64Max
  fourDigits : row.payload.createdAt.FourDigits
  suits : row.Suits row.payload

def ColumnsAgree (s : Cache) : Prop := ∀ id row, s.messages.get id = some row → row.Current

section
variable {keyed : Bool} {s s' : Cache} {message : Message}

theorem MessageContent.kindName_of_body (content : MessageContent)
    (h : content.body?.isSome = true) :
    (content.kindName == "text" || content.kindName == "system") = true := by
  cases content <;> first | rfl | cases h

/-- The row a message has stays when its other copies go. -/
theorem LocalStore.supersede_get (s : Cache) (message : Message) :
    (s.supersede message).messages.get message.id = s.messages.get message.id := by
  unfold LocalStore.supersede CachedMessage.superseded
  rw [Map.get_retain]
  cases s.messages.get message.id <;> simp

theorem ColumnsAgree.cached (h : ColumnsAgree s) (hsuits : s.Suits message)
    (haccepts : s.Accepts message) :
    ColumnsAgree (s.cached toRfc3339 keyed message message) := by
  have hsmall : ∀ n, message.sequence = some n → n < i64Max := by
    intro n hn
    have hle := haccepts.1
    rw [hn, Option.all_some, decide_eq_true_eq] at hle
    exact Nat.lt_of_le_of_ne hle fun he => hsuits.sequence (he ▸ hn)
  intro id row hrow
  unfold LocalStore.cached at hrow
  dsimp only at hrow
  rw [Map.get_insert] at hrow
  split at hrow
  · cases hrow
    unfold LocalStore.row
    rw [LocalStore.supersede_get]
    cases hold : s.messages.get message.id with
    | none =>
      exact ⟨rfl, hsmall, hsuits.fourDigits, rfl, message.content.kindName_of_body⟩
    | some row =>
      obtain ⟨hcreated, hsearchable⟩ := hsuits.row row hold
      exact ⟨rfl, hsmall, hsuits.fourDigits, hcreated, hsearchable⟩
  · exact h id row (Map.get_of_retain hrow)

/-- **Call.** -/
theorem ColumnsAgree.call {messages : List Message} (h : ColumnsAgree s)
    (hsuits : s.SuitsAll keyed messages) {k : Nat}
    (hr : (Tx.forEach (messages.zipIdx k) fun entry =>
      cacheMessage toRfc3339 keyed .ok entry.1).Runs s () s') : ColumnsAgree s' := by
  induction messages generalizing s k with
  | nil =>
    obtain ⟨-, rfl⟩ := Tx.runs_pure.mp hr
    exact h
  | cons message messages ih =>
    obtain ⟨hsuit, hrest⟩ := hsuits
    obtain ⟨⟨⟩, s₁, hone, hr⟩ := Tx.runs_bind.mp hr
    obtain ⟨payload, hpayload, haccepts, rfl⟩ := cacheMessage_runs.mp hone
    cases hpayload
    exact ih (h.cached hsuit haccepts) hrest hr

end

/-- **Run.** -/
theorem columnsAgree_inductive (keyed : Bool) :
    ((caching keyed).restrict (SuitsCall keyed)).Inductive ColumnsAgree where
  init s hs id row hrow := by
    have hs : s.messages = .empty := hs
    rw [hs, Map.get_empty] at hrow
    cases hrow
  step s messages s' h hs := by
    obtain ⟨hok, rfl⟩ := hs
    rcases Tx.commit_cases (cacheMessages toRfc3339 keyed messages) s with
      ⟨⟨⟩, s', hr, hcommit⟩ | ⟨e, hcommit⟩
    · rw [hcommit]
      exact h.call (hok s' hr) hr
    · rw [hcommit]
      exact h

/-! ## The order -/

section
variable {π : Type}

instance : Std.Total (CachedMessage.newer (π := π)) where
  total a b := by
    unfold CachedMessage.newer
    rcases Nat.lt_trichotomy (a.sequence.getD i64Max) (b.sequence.getD i64Max) with h | h | h
    · exact .inr (.inl h)
    · rcases le_total a.createdAt b.createdAt with hle | hle
      · exact .inr (.inr ⟨h, hle⟩)
      · exact .inl (.inr ⟨h.symm, hle⟩)
    · exact .inl (.inl h)

instance : IsTrans (CachedMessage π) CachedMessage.newer where
  trans a b c hab hbc := by
    unfold CachedMessage.newer at *
    rcases hab with hab | ⟨hab, hle⟩
    · rcases hbc with hbc | ⟨hbc, -⟩
      · exact .inl (Nat.lt_trans hbc hab)
      · exact .inl (hbc ▸ hab)
    · rcases hbc with hbc | ⟨hbc, hle'⟩
      · exact .inl (hab ▸ hbc)
      · exact .inr ⟨hbc.trans hab, hle'.trans hle⟩

end

/-- The order of the columns is that of the payloads. -/
theorem CachedMessage.Current.newer {a b : CachedMessage Message} (ha : a.Current) (hb : b.Current)
    (h : a.newer b) : Message.newer a.payload b.payload := by
  have hcreated : b.createdAt ≤ a.createdAt → b.payload.createdAt ≤ a.payload.createdAt := by
    rw [ha.suits.createdAt, hb.suits.createdAt, toRfc3339_le hb.fourDigits ha.fourDigits]
    exact id
  unfold CachedMessage.newer at h
  unfold Message.newer
  rw [← ha.sequence, ← hb.sequence]
  cases hm : a.sequence with
  | none =>
    cases hn : b.sequence with
    | none => simpa [hm, hn] using h.elim (by simp [hm, hn]) fun h => hcreated h.2
    | some n => trivial
  | some m =>
    have hsmall := ha.small m hm
    cases hn : b.sequence with
    | none =>
      rw [hm, hn] at h
      dsimp only [Option.getD] at h
      omega
    | some n =>
      rw [hm, hn] at h
      exact h.imp_right fun h => ⟨h.1, hcreated h.2⟩

/-! ## Main result -/

/-- **A search is a scan.** After any calls whose messages suit their rows, in a cache of at most
10000 messages. -/
theorem search_scans (lowercase : String → String) (keyed : Bool) (s : Cache)
    (hs : ((caching keyed).restrict (SuitsCall keyed)).Reachable s)
    (hlen : s.messages.values.length ≤ 10000) (query : String) (limit : Nat)
    (hquery : (Text.trim query).isEmpty = false) (hshort : (Text.trim query).toList.length ≤ 200)
    (hlimit : 1 ≤ limit ∧ limit ≤ 100) :
    ∃ found, searchMessages lowercase s query limit = .ok found ∧
      s.Scans lowercase query limit found := by
  have hagree := (columnsAgree_inductive keyed).reachable hs
  have hcurrent : ∀ row ∈ s.messages.values, row.Current := fun row hrow => by
    obtain ⟨id, hget⟩ := Map.mem_values.mp hrow
    exact hagree id row hget
  unfold searchMessages
  rw [if_neg (by simp [hquery, hlimit]; omega)]
  refine ⟨_, rfl, _, ?_, ?_, rfl⟩
  · -- what the kinds leave out does not match
    rw [List.take_of_length_le (by
      rw [List.length_insertionSort]
      exact Nat.le_trans (List.length_filter_le ..) hlen)]
    refine (((List.perm_insertionSort _ _).map _).filter _).trans (List.Perm.of_eq ?_)
    rw [List.filter_map, List.filter_map, List.filter_filter]
    congr 1
    refine List.filter_congr fun row hrow => ?_
    have hkind := (hcurrent row hrow).suits.searchable
    unfold Function.comp Message.matchesQuery
    cases hbody : row.payload.content.body? with
    | none => simp [hbody]
    | some body => rw [hkind (by rw [hbody]; rfl), Bool.and_true]
  · refine List.Pairwise.filter _ (List.pairwise_map.mpr ?_)
    refine ((List.pairwise_insertionSort CachedMessage.newer _).sublist
      (List.take_sublist ..)).imp_of_mem fun {a b} ha hb h => ?_
    have hmem : ∀ {row}, row ∈ ((s.messages.values.filter (·.searchable)).insertionSort
        CachedMessage.newer).take 10000 → row.Current := fun hrow =>
      hcurrent _ (List.mem_of_mem_filter
        ((List.mem_insertionSort _).mp (List.mem_of_mem_take hrow)))
    exact (hmem ha).newer (hmem hb) h

/-! ## A text and an image, recalled -/

section
variable {keyed : Bool} {s : Cache} {message : Message} {row : CachedMessage Message}

instance : Decidable (row.Suits message) :=
  decidable_of_iff (row.createdAt = toRfc3339 message.createdAt ∧
      (message.content.body?.isSome = true → row.searchable = true))
    ⟨fun h => ⟨h.1, h.2⟩, fun h => ⟨h.1, h.2⟩⟩

instance : Decidable (s.Suits message) :=
  decidable_of_iff (message.createdAt.FourDigits ∧ message.sequence ≠ some i64Max ∧
      (s.messages.get message.id).all (fun row => decide (row.Suits message)) = true)
    ⟨fun h => ⟨h.1, h.2.1, fun row hrow => by simpa [hrow] using h.2.2⟩,
      fun h => ⟨h.1, h.2, by
        cases hrow : s.messages.get message.id with
        | none => rfl
        | some row => simpa using h.3 row hrow⟩⟩

end

/-- Alice's text is recalled. -/
theorem search_scans_recalled : ∃ s,
    ((caching false).restrict (SuitsCall false)).Reachable s ∧
    ∃ found, searchMessages id s "撤回" 10 = .ok found ∧ s.Scans id "撤回" 10 found := by
  have htext : SuitsCall false knowsConversation [hiMessage] := fun _ _ =>
    ⟨by decide +kernel, trivial⟩
  have hrecall : SuitsCall false ((cacheMessages toRfc3339 false [hiMessage]).commit
      knowsConversation).2 [hiMessage.recalled 5] := fun _ _ => ⟨by decide +kernel, trivial⟩
  have hs : ((caching false).restrict (SuitsCall false)).Reachable _ :=
    ⟨knowsConversation, [[hiMessage], [hiMessage.recalled 5]], rfl,
      .cons ⟨htext, rfl⟩ (.cons ⟨hrecall, rfl⟩ (.nil _))⟩
  exact ⟨_, hs, search_scans id false _ hs (by decide +kernel) "撤回" 10 (by decide +kernel)
    (by decide +kernel) (by decide)⟩

/-- Alice's image in the conversation 9. -/
def imageMessage : Message :=
  { hiMessage with content := .image ⟨20, .image, "cat.png", "image/png", 1, none, "cat", none⟩ }

/-- It is recalled: the notice is in the cache, and no search finds it. -/
theorem recalled_image_not_found : ∃ s, (caching false).Reachable s ∧
    s.messages.values.length ≤ 10000 ∧ searchMessages id s "撤回" 10 = .ok [] ∧
    ¬ s.Scans id "撤回" 10 [] := by
  have hs : (caching false).Reachable _ :=
    ⟨knowsConversation, [[imageMessage], [imageMessage.recalled 5]], rfl,
      .cons rfl (.cons rfl (.nil _))⟩
  have hsearch : (searchMessages id ((cacheMessages toRfc3339 false [imageMessage.recalled 5]).commit
      ((cacheMessages toRfc3339 false [imageMessage]).commit knowsConversation).2).2 "撤回" 10).map
      (·.length) = .ok 0 := by decide +kernel
  obtain ⟨found, hfound, hnone⟩ := map_eq_ok_iff.mp hsearch
  obtain rfl := List.length_eq_zero_iff.mp hnone
  refine ⟨_, hs, by decide +kernel, hfound, ?_⟩
  rintro ⟨l, hl, -, hfirst⟩
  have hlength : l.length = 1 := hl.length_eq.trans (by decide +kernel)
  have hempty := congrArg List.length hfirst
  rw [List.length_take, hlength] at hempty
  cases hempty

end IamRust
