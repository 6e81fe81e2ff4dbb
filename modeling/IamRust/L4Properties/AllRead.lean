import IamRust.L4Properties.Positions

/-!
# Reading everything at once

`mark_all_read` against `mark_read` with the latest sequence, on each
conversation the actor can read. Both set the positions to the latest sequence.
`mark_read` also adds the actor to the receipts of the messages of the others;
`mark_all_read` writes no receipts.

* `ReadsEach`: what the single calls write, in any order.
* `all_read_iff_each`: the two agree exactly if there are no receipts to write.
* `all_read_unseen`: a message that stays "sent" for its sender.
-/
namespace IamRust

open Core

/-- `mark_read` with the latest sequence, on each of the conversations. -/
def markEach (s : Store) (actor : UserId) (ids : List ConversationId) (now : DateTime) : List Op :=
  ids.map fun id => .markRead actor id (lastSequence s id) now

/-- The marks of the two stores, and what everybody is shown of them. -/
structure SameMarks (w w' : World) : Prop where
  settings : w'.conversationSettings = w.conversationSettings
  positions : w'.readPositions = w.readPositions
  receipts : w'.messageReceipts = w.messageReceipts
  statuses : ∀ now v id before limit, messages w'.toStore now v id before limit =
    messages w.toStore now v id before limit
  details : ∀ v i, messageDetails w'.toStore v i = messageDetails w.toStore v i

/-- A message of somebody else that `mark_read` up to the latest sequence marks. -/
def Store.Marked (s : Store) (actor : UserId) (id : ConversationId) (i : MessageId) : Prop :=
  ∃ m ∈ s.timeline id, m.id = i ∧ m.senderId ≠ actor ∧
    ∃ n ≤ lastSequence s id, m.sequence = some n

/-- Every such message was delivered to the actor and read. -/
def Store.AllOpened (s : Store) (actor : UserId) : Prop :=
  ∀ id i, s.readable actor id = true → s.Marked actor id i →
    ∃ r, s.messageReceipts.get i = some r ∧ actor ∈ r.deliveredTo ∧ actor ∈ r.readBy

/-- No position of the actor is beyond the latest sequence. -/
def Store.WithinLatest (s : Store) (actor : UserId) : Prop :=
  ∀ id, s.readable actor id = true →
    s.lastRead actor id ≤ lastSequence s id ∧ s.position actor id ≤ lastSequence s id

section
variable {env : Env} {w w₁ w₂ : World} {actor : UserId} {ids : List ConversationId}
  {now : DateTime}

/-! ## The calls one by one -/

/-- The operations of a list, one after the other, are a loop over it. -/
theorem run_map_iff {α : Type} {f : α → Op} {l : List α} {w w' : World} :
    (service env).Run w (l.map f) w' ↔ (Tx.forEach l fun a => (f a).run env).Runs w () w' := by
  induction l generalizing w with
  | nil =>
    constructor
    · rintro ⟨⟩
      exact Tx.runs_pure.mpr ⟨rfl, rfl⟩
    · intro h
      rw [(Tx.runs_pure.mp h).2]
      exact .nil w
  | cons a l ih =>
    constructor
    · rintro (_ | ⟨hs, r⟩)
      exact Tx.runs_bind.mpr ⟨(), _, hs, ih.mp r⟩
    · intro h
      obtain ⟨_, _, hs, hl⟩ := Tx.runs_bind.mp h
      exact .cons hs (ih.mpr hl)

/-- What the single calls write. -/
structure ReadsEach (w : World) (actor : UserId) (ids : List ConversationId) (w' : World) :
    Prop where
  others : Evolves [.messageReceipts, .readPositions, .conversationSettings] w w'
  settings : ∀ k, w'.conversationSettings.get k = if ∃ id ∈ ids, k = (actor, id) then
    let settings := (w.conversationSettings.get k).getD (defaultConversationSettings k.2)
    some (settings.readThrough (max settings.lastReadSequence (lastSequence w.toStore k.2)))
    else w.conversationSettings.get k
  positions : ∀ k, w'.readPositions.get k = if ∃ id ∈ ids, k = (actor, id) then
    some (max ((w.readPositions.get k).getD 0) (lastSequence w.toStore k.2))
    else w.readPositions.get k
  marked : ∀ i, (∃ id ∈ ids, w.Marked actor id i) → w'.messageReceipts.get i =
    some (((w.messageReceipts.get i).getD .default).readFrom actor)
  unmarked : ∀ i, (¬ ∃ id ∈ ids, w.Marked actor id i) →
    w'.messageReceipts.get i = w.messageReceipts.get i

/-- One of the calls, behind others of them. -/
theorem markRead_latest {s s' : World} {id : ConversationId}
    (hs : Evolves [.messageReceipts, .readPositions, .conversationSettings] w s)
    (h : (markRead env actor id (lastSequence w.toStore id) now).Runs s () s') :
    Evolves [.messageReceipts, .readPositions, .conversationSettings] w s' ∧
      ReadsUpTo s actor id (lastSequence w.toStore id) s' ∧ s.timeline id = w.timeline id := by
  have hmessages : s.messages = w.messages := hs.same .messages (by decide)
  have htimeline : s.timeline id = w.timeline id := by
    unfold Store.timeline
    rw [hmessages]
  have hlatest : lastSequence s.toStore id = lastSequence w.toStore id := by
    unfold lastSequence
    rw [hmessages]
  have hread := (markRead_upTo h).2
  rw [hlatest, Nat.min_self] at hread
  exact ⟨IsTrans.trans _ _ _ hs (Tx.Keeps.runs h), hread, htimeline⟩

theorem ReceiptState.readFrom_twice (receipts : ReceiptState) :
    (receipts.readFrom actor).readFrom actor = receipts.readFrom actor := by
  simp [ReceiptState.readFrom]

theorem markEach_reads (h : (service env).Run w (markEach w.toStore actor ids now) w₂) :
    ReadsEach w actor ids w₂ := by
  classical
  have hloop := run_map_iff.mp h
  have hpass : ∀ {id : ConversationId} {s s' : World},
      Evolves [.messageReceipts, .readPositions, .conversationSettings] w s →
      ((Op.markRead actor id (lastSequence w.toStore id) now).run env).Runs s () s' →
      Evolves [.messageReceipts, .readPositions, .conversationSettings] w s' ∧
        ReadsUpTo s actor id (lastSequence w.toStore id) s' ∧ s.timeline id = w.timeline id := by
    intro id s s' hs hr
    obtain ⟨_, hr⟩ := Tx.runs_void.mp hr
    exact markRead_latest hs hr
  have hsettings := Tx.forEach_upserts (P := fun id k => k = (actor, id))
    (o := fun w k => w.conversationSettings.get k) (d := fun k => defaultConversationSettings k.2)
    (g := fun k settings => settings.readThrough
      (max settings.lastReadSequence (lastSequence w.toStore k.2)))
    (fun k settings => by simp [ConversationSettings.readThrough])
    (fun {id s s'} hs hr => by
      obtain ⟨hs', hread, -⟩ := hpass hs hr
      refine ⟨hs', fun k => ?_⟩
      rw [hread.settings, Map.get_upsert]
      split
      · subst_vars
        rfl
      · rfl)
    (refl w) hloop
  have hpositions := Tx.forEach_upserts (P := fun id k => k = (actor, id))
    (o := fun w k => w.readPositions.get k) (d := fun _ => 0)
    (g := fun k n => max n (lastSequence w.toStore k.2))
    (fun k n => by simp)
    (fun {id s s'} hs hr => by
      obtain ⟨hs', hread, -⟩ := hpass hs hr
      refine ⟨hs', fun k => ?_⟩
      rw [hread.positions, Map.get_upsert]
      split
      · subst_vars
        rfl
      · rfl)
    (refl w) hloop
  have hreceipts := Tx.forEach_upserts (P := fun id i => w.Marked actor id i)
    (o := fun w i => w.messageReceipts.get i) (d := fun _ => .default)
    (g := fun _ receipts => receipts.readFrom actor)
    (fun _ receipts => receipts.readFrom_twice)
    (fun {id s s'} hs hr => by
      obtain ⟨hs', hread, htimeline⟩ := hpass hs hr
      refine ⟨hs', fun i => ?_⟩
      rw [hread.receipts i, htimeline]
      exact if_congr Iff.rfl rfl rfl)
    (refl w) hloop
  exact ⟨hsettings.1, fun k => hsettings.2 k, fun k => hpositions.2 k,
    fun i hi => (hreceipts.2 i).trans (if_pos hi), fun i hi => (hreceipts.2 i).trans (if_neg hi)⟩

/-! ## Both succeed -/

theorem markAllRead_succeeds (env : Env) (w : World) (actor : UserId) (now : DateTime) :
    ∃ w₁, (markAllRead env actor now).Runs w () w₁ := by
  obtain ⟨w₁, hloop, -⟩ := Tx.forEach_runs (I := fun _ : World => True)
    (l := (w.conversations.values.filter (·.canRead actor)).map (·.id))
    (f := fun id => do
      update .readPositions fun s => s.readPositions.insert (actor, id) (lastSequence w.toStore id)
      update .conversationSettings fun s => s.conversationSettings.upsert (actor, id)
        (defaultConversationSettings id) (·.readThrough (lastSequence w.toStore id)))
    (fun id _ s _ => ⟨_, update_bind_runs.mpr (update_runs.mpr rfl), trivial⟩) trivial
  exact ⟨_, Tx.runs_get_bind.mpr (Tx.runs_bind.mpr ⟨(), w₁, hloop, appendEvent_runs.mpr rfl⟩)⟩

theorem markRead_succeeds (env : Env) {w : World} {id : ConversationId} (through : Nat)
    (now : DateTime) (hread : w.readable actor id = true) :
    ∃ w', (markRead env actor id through now).Runs w () w' := by
  obtain ⟨c, hget, hc⟩ := Store.readable_iff.mp hread
  have hruns : ∃ u w', (markRead env actor id through now).Runs w u w' := by
    refine Tx.exists_bind (Tx.runs_get.mpr ⟨rfl, rfl⟩) ?_
    refine Tx.exists_bind (Tx.runs_okOr.mpr ⟨hget, rfl⟩) ?_
    refine Tx.exists_bind (a := ()) (Tx.runs_failIf.mpr ⟨by simp [hc], rfl⟩) ?_
    refine Tx.exists_bind_any ?_ fun _ w₁ => ?_
    · obtain ⟨w₁, hloop, -⟩ := Tx.forEach_runs (I := fun _ : World => True)
        (fun i _ s _ => ⟨_, update_runs.mpr rfl, trivial⟩) trivial
      exact ⟨(), w₁, hloop⟩
    · exact ⟨(), _, update_bind_runs.mpr (update_bind_runs.mpr (appendEvent_runs.mpr rfl))⟩
  obtain ⟨_, w', hr⟩ := hruns
  exact ⟨w', hr⟩

theorem markEach_succeeds (env : Env) (w : World) (now : DateTime)
    (hids : ∀ id ∈ ids, w.readable actor id = true) :
    ∃ w₂, (service env).Run w (markEach w.toStore actor ids now) w₂ := by
  obtain ⟨w₂, hloop, -⟩ := Tx.forEach_runs
    (I := Evolves [.messageReceipts, .readPositions, .conversationSettings] w)
    (f := fun id => (Op.markRead actor id (lastSequence w.toStore id) now).run env) (l := ids)
    (fun id hid s hs => by
      have hread : s.readable actor id = true := by
        rw [← hids id hid]
        unfold Store.readable
        rw [show s.conversations = w.conversations from hs.same .conversations (by decide)]
      obtain ⟨s', hr⟩ := markRead_succeeds env (lastSequence w.toStore id) now hread
      exact ⟨s', Tx.runs_void.mpr ⟨_, hr⟩, (markRead_latest hs hr).1⟩)
    (refl w)
  exact ⟨w₂, run_map_iff.mpr hloop⟩

/-! ## Compared -/

/-- The marks decide what is shown. -/
theorem SameMarks.of_marks
    (h₁ : Evolves [.messageReceipts, .readPositions, .conversationSettings] w w₁)
    (h₂ : Evolves [.messageReceipts, .readPositions, .conversationSettings] w w₂)
    (hsettings : w₁.conversationSettings = w₂.conversationSettings)
    (hpositions : w₁.readPositions = w₂.readPositions)
    (hreceipts : w₁.messageReceipts = w₂.messageReceipts) : SameMarks w₂ w₁ := by
  have hsame : ∀ f, f ∉ [Field.messageReceipts, .readPositions, .conversationSettings] ++ logFields →
      w₁.field f = w₂.field f := fun f hf => (h₁.same f hf).trans (h₂.same f hf).symm
  have hconv : w₁.conversations = w₂.conversations := hsame .conversations (by decide)
  have hmessages : w₁.messages = w₂.messages := hsame .messages (by decide)
  have hexpires : w₁.messageExpirations = w₂.messageExpirations :=
    hsame .messageExpirations (by decide)
  have hprivacy : w₁.profilePrivacy = w₂.profilePrivacy := hsame .profilePrivacy (by decide)
  have hreactions : w₁.messageReactions = w₂.messageReactions := hsame .messageReactions (by decide)
  have hfavorites : w₁.favoriteMessages = w₂.favoriteMessages := hsame .favoriteMessages (by decide)
  refine ⟨hsettings, hpositions, hreceipts, fun now v id before limit => ?_, fun v i => ?_⟩
  · refine messages_congr hconv hmessages hexpires fun _ m _ => ?_
    unfold shownStatus readReceiptsEnabled
    rw [hreceipts, hprivacy]
  · unfold messageDetails readReceiptsEnabled
    rw [readableMessage_congr hconv hmessages, hreceipts, hprivacy, hreactions, hfavorites, hexpires]

theorem markAllRead_others (h : (markAllRead env actor now).Runs w () w₁) :
    w₁.messageReceipts = w.messageReceipts ∧
      Evolves [.messageReceipts, .readPositions, .conversationSettings] w w₁ :=
  ⟨(Tx.Keeps.runs (R := Evolves [.readPositions, .conversationSettings]) h).same .messageReceipts
    (by decide), Tx.Keeps.runs h⟩

theorem ReceiptState.readFrom_eq_self {receipts : ReceiptState}
    (hdelivered : actor ∈ receipts.deliveredTo) (hread : actor ∈ receipts.readBy) :
    receipts.readFrom actor = receipts := by
  simp [ReceiptState.readFrom, hdelivered, hread]

/-- A receipt nobody has to add to. -/
theorem opened_iff {o : Option ReceiptState} :
    o = some ((o.getD .default).readFrom actor) ↔
      ∃ r, o = some r ∧ actor ∈ r.deliveredTo ∧ actor ∈ r.readBy := by
  constructor
  · intro h
    refine ⟨_, h, ?_, ?_⟩ <;> exact Finset.mem_insert_self ..
  · rintro ⟨r, rfl, hdelivered, hread⟩
    rw [Option.getD_some, ReceiptState.readFrom_eq_self hdelivered hread]

theorem sameMarks_iff (hnamed : Named w) (hids : ∀ id, id ∈ ids ↔ w.readable actor id = true)
    (h₁ : (markAllRead env actor now).Runs w () w₁) (h₂ : ReadsEach w actor ids w₂) :
    SameMarks w₂ w₁ ↔ w.WithinLatest actor ∧ w.AllOpened actor := by
  have hall := markAllRead_all h₁
  obtain ⟨hreceipts, hothers⟩ := markAllRead_others h₁
  -- the conversations are the same, in whatever order
  have hlisted : ∀ k, (∃ id ∈ (w.conversations.values.filter (·.canRead actor)).map (·.id),
      k = (actor, id)) ↔ ∃ id ∈ ids, k = (actor, id) := fun k =>
    exists_congr fun id => and_congr_left fun _ => (mem_readable_ids hnamed).trans (hids id).symm
  have hsettings : ∀ id, id ∈ ids → (w₁.conversationSettings.get (actor, id) =
      w₂.conversationSettings.get (actor, id) ↔ w.lastRead actor id ≤ lastSequence w.toStore id) := by
    intro id hid
    rw [hall.settings, if_pos ((hlisted _).mpr ⟨id, hid, rfl⟩), h₂.settings, if_pos ⟨id, hid, rfl⟩]
    simp only [Option.some.injEq, ConversationSettings.readThrough,
      ConversationSettings.mk.injEq, true_and, and_true]
    exact ⟨fun h => by rw [h]; exact Nat.le_max_left _ _, fun h => (Nat.max_eq_right h).symm⟩
  have hpositions : ∀ id, id ∈ ids → (w₁.readPositions.get (actor, id) =
      w₂.readPositions.get (actor, id) ↔ w.position actor id ≤ lastSequence w.toStore id) := by
    intro id hid
    rw [hall.positions, if_pos ((hlisted _).mpr ⟨id, hid, rfl⟩), h₂.positions, if_pos ⟨id, hid, rfl⟩]
    simp only [Option.some.injEq]
    exact ⟨fun h => by rw [h]; exact Nat.le_max_left _ _, fun h => (Nat.max_eq_right h).symm⟩
  constructor
  · intro hsame
    refine ⟨fun id hread => ?_, fun id i hread hmarked => ?_⟩
    · have hid := (hids id).mpr hread
      exact ⟨(hsettings id hid).mp (by rw [hsame.settings]),
        (hpositions id hid).mp (by rw [hsame.positions])⟩
    · have hmarked := h₂.marked i ⟨id, (hids id).mpr hread, hmarked⟩
      rw [← hsame.receipts, hreceipts] at hmarked
      exact opened_iff.mp hmarked
  · rintro ⟨hwithin, hopened⟩
    refine .of_marks hothers h₂.others (Map.ext fun k => ?_) (Map.ext fun k => ?_)
      (Map.ext fun i => ?_)
    · by_cases hk : ∃ id ∈ ids, k = (actor, id)
      · obtain ⟨id, hid, rfl⟩ := hk
        exact (hsettings id hid).mpr (hwithin id ((hids id).mp hid)).1
      · rw [hall.settings, if_neg (mt (hlisted k).mp hk), h₂.settings, if_neg hk]
    · by_cases hk : ∃ id ∈ ids, k = (actor, id)
      · obtain ⟨id, hid, rfl⟩ := hk
        exact (hpositions id hid).mpr (hwithin id ((hids id).mp hid)).2
      · rw [hall.positions, if_neg (mt (hlisted k).mp hk), h₂.positions, if_neg hk]
    · rw [hreceipts]
      by_cases hi : ∃ id ∈ ids, w.Marked actor id i
      · obtain ⟨id, hid, hmarked⟩ := hi
        rw [h₂.marked i ⟨id, hid, hmarked⟩]
        exact opened_iff.mpr (hopened id i ((hids id).mp hid) hmarked)
      · exact (h₂.unmarked i hi).symm

end

/-! ## Main result -/

/-- **Marking all read is marking each read** exactly if the actor has opened every message that
`mark_read` would mark, and has no position beyond the latest sequence. The latter always holds
while no conversation has more messages than there are sequences. -/
theorem all_read_iff_each (env : Env) (hu : Function.Injective env.uuid) (w : World)
    (hw : (service env).Reachable w) (actor : UserId) (ids : List ConversationId)
    (hids : ∀ id, id ∈ ids ↔ w.readable actor id = true) (now : DateTime) :
    (∃ w₁ w₂, (markAllRead env actor now).Runs w () w₁ ∧
      (service env).Run w (markEach w.toStore actor ids now) w₂ ∧
      (SameMarks w₂ w₁ ↔ w.WithinLatest actor ∧ w.AllOpened actor)) ∧
    ((∀ id, (w.timeline id).length ≤ u64Max) → w.WithinLatest actor) := by
  obtain ⟨htimelines, -, hnamed, hmeasured⟩ := (measured_inductive hu).reachable hw
  constructor
  · obtain ⟨w₁, h₁⟩ := markAllRead_succeeds env w actor now
    obtain ⟨w₂, h₂⟩ := markEach_succeeds env w now fun id => (hids id).mp
    exact ⟨w₁, w₂, h₁, h₂, sameMarks_iff hnamed hids h₁ (markEach_reads h₂)⟩
  · intro hlen id _
    rw [htimelines.lastSequence (hlen id)]
    exact hmeasured.bounded actor id (hlen id)

/-- Alice, user 1, writes to the group of the two; Bob is user 4. -/
def aliceWritesBob : List Op := aliceAndBob ++ [.sendMessageRequest 1 11 (.text 100 "hi") 0]

/-- `Store.AllOpened` and `Store.WithinLatest`, computed over the conversations. -/
def Store.opened (s : Store) (actor : UserId) : Bool :=
  s.conversations.values.all fun c => !c.canRead actor ||
    decide (s.lastRead actor c.id ≤ lastSequence s c.id ∧
      s.position actor c.id ≤ lastSequence s c.id) &&
    (s.timeline c.id).all fun m => m.senderId == actor || (s.messageReceipts.get m.id).any fun r =>
      decide (actor ∈ r.deliveredTo) && decide (actor ∈ r.readBy)

theorem allOpened_of_opened {w : World} {actor : UserId} (hnamed : Named w)
    (h : w.opened actor = true) : w.WithinLatest actor ∧ w.AllOpened actor := by
  have hone : ∀ id, w.readable actor id = true →
      (w.lastRead actor id ≤ lastSequence w.toStore id ∧
        w.position actor id ≤ lastSequence w.toStore id) ∧
      ∀ m ∈ w.timeline id, m.senderId = actor ∨ ∃ r, w.messageReceipts.get m.id = some r ∧
        actor ∈ r.deliveredTo ∧ actor ∈ r.readBy := by
    intro id hread
    obtain ⟨c, hget, hc⟩ := Store.readable_iff.mp hread
    have hone := List.all_eq_true.mp h c (Map.mem_values.mpr ⟨id, hget⟩)
    rw [hnamed id c hget] at hone
    simpa [hc, Option.any_eq_true, and_assoc] using hone
  refine ⟨fun id hread => (hone id hread).1, fun id i hread hmarked => ?_⟩
  obtain ⟨m, hm, rfl, hsender, -⟩ := hmarked
  exact ((hone id hread).2 m hm).resolve_left hsender

/-- Bob has read the message: there is nothing left to mark. -/
theorem all_read_bob : ∃ w w₁ w₂, (service Env.numbered).Reachable w ∧
    (w.timeline 11).length = 1 ∧ (markAllRead Env.numbered 4 0).Runs w () w₁ ∧
    (service Env.numbered).Run w (markEach w.toStore 4 [9, 11] 0) w₂ ∧ SameMarks w₂ w₁ := by
  obtain ⟨w, hw, hp⟩ := reaches Env.numbered (aliceWritesBob ++ [.markRead 4 11 1 0])
    (fun w => decide ((w.timeline 11).length = 1) && w.opened 4 &&
      decide ((w.conversations.values.filter (·.canRead 4)).map (·.id) = [9, 11]))
    (by decide +kernel)
  simp only [Bool.and_eq_true, decide_eq_true_eq] at hp
  obtain ⟨⟨hlength, hopened⟩, hids⟩ := hp
  have hreach := reachable_of_run hw
  have hnamed := ((measured_inductive Env.numbered_injective).reachable hreach).2.2.1
  obtain ⟨⟨w₁, w₂, h₁, h₂, hsame⟩, -⟩ := all_read_iff_each Env.numbered Env.numbered_injective w
    hreach 4 [9, 11] (fun id => hids ▸ mem_readable_ids hnamed) 0
  exact ⟨w, w₁, w₂, hreach, hlength, h₁, h₂, hsame.mpr (allOpened_of_opened hnamed hopened)⟩

/-- Bob marks everything as read: Alice's message stays "sent". Had he marked each conversation, she
would see that he has read it. -/
theorem all_read_unseen : ∃ w w₁ w₂, (service Env.numbered).Reachable w ∧
    (∀ id, id ∈ [9, 11] ↔ w.readable 4 id = true) ∧ (markAllRead Env.numbered 4 0).Runs w () w₁ ∧
    (service Env.numbered).Run w (markEach w.toStore 4 [9, 11] 0) w₂ ∧
    (messages w₁.toStore 0 1 11 none 10).map (·.map (·.status)) = .ok [.sent] ∧
    (messages w₂.toStore 0 1 11 none 10).map (·.map (·.status)) = .ok [.read] ∧
    ¬ SameMarks w₂ w₁ := by
  obtain ⟨w, _, w₁, hw, h₁, hp⟩ := reaches_runs Env.numbered aliceWritesBob
    (markAllRead Env.numbered 4 0) (fun w _ w₁ =>
      decide ((w.conversations.values.filter (·.canRead 4)).map (·.id) = [9, 11]) &&
      (messages w₁.toStore 0 1 11 none 10).toOption.map (·.map (·.status)) == some [.sent] &&
      (runOps Env.numbered (markEach w.toStore 4 [9, 11] 0) w).toOption.any fun w₂ =>
        (messages w₂.toStore 0 1 11 none 10).toOption.map (·.map (·.status)) == some [.read])
    (by decide +kernel)
  simp only [Bool.and_eq_true, decide_eq_true_eq, beq_iff_eq, Option.any_eq_true,
    Option.map_eq_some_iff, toOption_eq_some] at hp
  obtain ⟨⟨hids, sent, hsent, hstatus₁⟩, w₂, h₂, read, hread, hstatus₂⟩ := hp
  have hreach := reachable_of_run hw
  have hnamed := ((measured_inductive Env.numbered_injective).reachable hreach).2.2.1
  refine ⟨w, w₁, w₂, hreach, fun id => hids ▸ mem_readable_ids hnamed, h₁, run_of_runOps h₂,
    map_eq_ok_iff.mpr ⟨sent, hsent, hstatus₁⟩, map_eq_ok_iff.mpr ⟨read, hread, hstatus₂⟩,
    fun hsame => ?_⟩
  have heq := hsame.statuses 0 1 11 none 10
  rw [hsent, hread] at heq
  cases heq
  rw [hstatus₁] at hstatus₂
  cases hstatus₂

end IamRust
