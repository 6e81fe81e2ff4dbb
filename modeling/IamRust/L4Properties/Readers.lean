import IamRust.L4Properties.Contents

/-!
# Who is shown a message

What each reader of messages returns comes from a conversation the actor is a
member of, with one exception: the favourites, which `set_message_favorite` lets
only members add, stay when the member leaves. So exactly the steps that take a
group from a user with a favourite in it (`Op.Strands`) show a message to
somebody outside (`members_only`).
-/
namespace IamRust

open Core

/-! ## What the readers return -/

section
variable {s : Store} {u : UserId} {a : AttachmentId}

theorem readableConversation_ok {id : ConversationId} {c : Conversation}
    (h : readableConversation s u id = .ok c) : s.readable u id = true := by
  unfold readableConversation at h
  split at h
  · cases h
  split at h
  · cases h
    exact readable_of ‹_› ‹_›
  · cases h

/-- `messages` shows messages of the timeline that have not expired. -/
theorem messages_ok {now : DateTime} {id : ConversationId} {before : Option Nat} {limit : Nat}
    {l : List Message} (h : messages s now u id before limit = .ok l) {m : Message} (hm : m ∈ l) :
    s.readable u id = true ∧ ∃ m₀ ∈ s.timeline id, unexpired s now m₀ = true ∧
      m = { m₀ with status := shownStatus s u m₀ } := by
  unfold messages at h
  cases hread : readableConversation s u id with
  | error e =>
    rw [hread] at h
    cases h
  | ok c =>
    rw [hread] at h
    cases h
    obtain ⟨m₀, hm₀, rfl⟩ := List.mem_map.mp hm
    have hpage := List.mem_reverse.mp (List.mem_of_mem_take (List.mem_reverse.mp hm₀))
    obtain ⟨hmem, hfilter⟩ := List.mem_filter.mp hpage
    exact ⟨readableConversation_ok hread, m₀, hmem, (Bool.and_eq_true_iff.mp hfilter).1, rfl⟩

theorem messageDetails_ok {i : MessageId} {details : MessageDetails}
    (h : messageDetails s u i = .ok details) : readableMessage s u i = .ok details.message := by
  unfold messageDetails at h
  cases hread : readableMessage s u i with
  | error e =>
    rw [hread] at h
    cases h
  | ok m =>
    rw [hread] at h
    cases h
    rfl

/-- A member is shown the details of a message. -/
theorem messageDetails_of {i : MessageId} {m : Message} (hfind : findMessage s i = some m)
    (hread : s.readable u m.conversationId = true) :
    ∃ details, messageDetails s u i = .ok details ∧ details.message = m := by
  obtain ⟨c, hget, hread⟩ := Store.readable_iff.mp hread
  have hok : readableMessage s u i = .ok m := by
    simp [readableMessage, readableConversation, hfind, hget, hread, Except.map]
  unfold messageDetails
  rw [hok]
  exact ⟨_, rfl, rfl⟩

theorem messageTextForTranslation_ok {i : MessageId} {text : String}
    (h : messageTextForTranslation s u i = .ok text) :
    ∃ m, readableMessage s u i = .ok m ∧ m.content = .text text := by
  unfold messageTextForTranslation at h
  split at h
  · cases h
  split at h
  · cases h
    exact ⟨_, ‹_›, ‹_›⟩
  · cases h

theorem messageAudioForTranscription_ok {i : MessageId} {attachment : Attachment}
    (h : messageAudioForTranscription s u i = .ok attachment) :
    ∃ m duration, readableMessage s u i = .ok m ∧ m.content = .audio attachment duration := by
  unfold messageAudioForTranscription at h
  split at h
  · cases h
  split at h
  · cases h
    exact ⟨_, _, ‹_›, ‹_›⟩
  · cases h

theorem mem_favoriteMessages {m : Message} : m ∈ favoriteMessages s u ↔
    ∃ i, (u, i) ∈ s.favoriteMessages ∧ findMessage s i = some m := by
  simp only [favoriteMessages, mem_sortByKeyRev, List.mem_filterMap, Finset.mem_sort,
    Finset.mem_image, Finset.mem_filter]
  constructor
  · rintro ⟨i, ⟨⟨_, _⟩, ⟨hmem, rfl⟩, rfl⟩, hfind⟩
    exact ⟨_, hmem, hfind⟩
  · rintro ⟨i, hmem, hfind⟩
    exact ⟨i, ⟨(u, i), ⟨hmem, rfl⟩, rfl⟩, hfind⟩

/-- A file is listed with its message, sender and time. -/
theorem groupFiles_ok {id : ConversationId} {items : List GroupFileItem}
    (h : groupFiles s u id = .ok items) {item : GroupFileItem} (hitem : item ∈ items) :
    s.readable u id = true ∧ ∃ m ∈ s.timeline id, m.content = .file item.attachment ∧
      m.id = item.messageId := by
  unfold groupFiles at h
  split at h
  · cases h
  rename_i c hget
  split at h
  · cases h
  · cases h
  rename_i member _ hmember
  have hmember := requireMember_ok.mp hmember
  cases h
  obtain ⟨m, hm, hfile⟩ := List.mem_filterMap.mp (List.mem_of_mem_take hitem)
  refine ⟨readable_of hget (Map.containsKey_iff.mpr ⟨member, hmember⟩), m, List.mem_reverse.mp hm, ?_⟩
  split at hfile
  · cases hfile
    exact ⟨‹_›, rfl⟩
  · cases hfile

theorem exportPersonalData_ok {now : DateTime} {data : PersonalDataExport}
    (h : exportPersonalData s u now = .ok data) {m : Message} (hm : m ∈ data.messages) :
    ∃ id, m ∈ s.timeline id ∧ ∃ i c, s.conversations.get i = some c ∧ c.id = id ∧
      c.canRead u = true := by
  unfold exportPersonalData at h
  split at h
  · cases h
  split at h
  · cases h
  cases h
  obtain ⟨⟨id, l⟩, hentry, hml⟩ := List.mem_flatMap.mp (mem_sortByKey.mp hm)
  obtain ⟨hentry, hid⟩ := List.mem_filter.mp hentry
  obtain ⟨c, hc, rfl⟩ := List.mem_map.mp (of_decide_eq_true hid)
  obtain ⟨hc, hread⟩ := List.mem_filter.mp hc
  obtain ⟨i, hget⟩ := Map.mem_values.mp hc
  refine ⟨c.id, ?_, i, c, hget, rfl, hread⟩
  rw [Store.timeline, Map.mem_entries.mp hentry]
  exact hml

/-- The source of a forward is a stored message that its user reads. -/
theorem forwardSource_readable {mode : ForwardMode} {id : MessageId} {source : ForwardedMessage}
    (h : forwardSource s u mode id = .ok source) : ∃ m, findMessage s id = some m ∧
      source.content = m.content ∧ s.readable u m.conversationId = true := by
  unfold forwardSource at h
  split at h
  · cases h
  rename_i m hm
  split at h
  · cases h
  rename_i c hc
  split at h
  · cases h
  rename_i hrefused
  split at h
  · cases h
  · cases h
    rw [not_or, Bool.not_eq_false] at hrefused
    exact ⟨m, hm, rfl, readable_of hc hrefused.1⟩

theorem collectForwardSources_readable {mode : ForwardMode} {ids : List MessageId}
    {sources : List ForwardedMessage} (h : collectForwardSources s u mode ids = .ok sources)
    {source : ForwardedMessage} (hmem : source ∈ sources) : ∃ id ∈ ids, ∃ m,
      findMessage s id = some m ∧ source.content = m.content ∧
        s.readable u m.conversationId = true := by
  obtain ⟨id, hid, hsource⟩ := related_of_mem (collectForwardSources_each h).flip hmem
  exact ⟨id, hid, forwardSource_readable hsource⟩

/-- What a forward appends are copies of messages its user reads. -/
theorem forwardMessages_readable {env : Env} {actor : UserId} {ids : List MessageId}
    {target : ConversationId} {mode : ForwardMode} {now : DateTime} {w w' : World}
    {ms : List Message} (h : (forwardMessages env actor ids target mode now).Runs w ms w')
    {i : MessageId} (hi : i ∈ ids) :
    ∃ m, findMessage w.toStore i = some m ∧ w.readable actor m.conversationId = true := by
  obtain ⟨-, sources, -, hsources, -⟩ := forwardMessages_cases h
  obtain ⟨source, -, hsource⟩ := related_of_mem (collectForwardSources_each hsources) hi
  obtain ⟨m, hfind, -, hread⟩ := forwardSource_readable hsource
  exact ⟨m, hfind, hread⟩
end

/-! ## What all of them may show -/

/-- What the readers of messages show a user at the time `now`, whole or as a text or an
attachment, are messages that `P` allows. -/
structure ShowsOnly (env : Env) (w : World) (now : DateTime) (P : UserId → Message → Prop) :
    Prop where
  messages : ∀ {u id before limit l}, messages w.toStore now u id before limit = .ok l →
    ∀ m ∈ l, P u m
  details : ∀ {u i details}, messageDetails w.toStore u i = .ok details → P u details.message
  favorites : ∀ {u}, ∀ m ∈ favoriteMessages w.toStore u, P u m
  exports : ∀ {u data}, exportPersonalData w.toStore u now = .ok data → ∀ m ∈ data.messages, P u m
  text : ∀ {u i text}, messageTextForTranslation w.toStore u i = .ok text →
    ∃ m, findMessage w.toStore i = some m ∧ m.content = .text text ∧ P u m
  audio : ∀ {u i attachment}, messageAudioForTranscription w.toStore u i = .ok attachment →
    ∃ m duration, findMessage w.toStore i = some m ∧ m.content = .audio attachment duration ∧ P u m
  files : ∀ {u id items}, groupFiles w.toStore u id = .ok items → ∀ item ∈ items,
    ∃ m ∈ w.timeline id, m.id = item.messageId ∧ m.content = .file item.attachment ∧ P u m
  sources : ∀ {u ids target mode ms w'},
    (forwardMessages env u ids target mode now).Runs w ms w' → ∀ i ∈ ids,
      ∃ m, findMessage w.toStore i = some m ∧ P u m

section
variable {env : Env} {w w' : World} {op : Op} {u : UserId} {i : MessageId} {m m' : Message}

theorem Timelines.home_of_mem (h : Timelines env w) {id : ConversationId}
    (hm : m ∈ w.timeline id) : m.conversationId = id := by
  obtain ⟨j, hj⟩ := Store.messageAt_of_mem hm
  exact h.home hj

/-- A stored message is found under its id. -/
theorem Timelines.findMessage (h : Timelines env w) {id : ConversationId}
    (hm : m ∈ w.timeline id) : findMessage w.toStore m.id = some m := by
  obtain ⟨m', hfind⟩ := findMessage_isSome hm
  obtain ⟨hid, c, hm'⟩ := findMessage_some hfind
  obtain ⟨j, hj⟩ := Store.messageAt_of_mem hm
  obtain ⟨k, hk⟩ := Store.messageAt_of_mem hm'
  obtain ⟨rfl, rfl⟩ := h.unique hj hk hid.symm
  cases hj.symm.trans hk
  exact hfind

/-- **Readers.** Together they show the messages of the user's conversations and the user's
favourites. -/
theorem showsOnly_iff {now : DateTime} {P : UserId → Message → Prop} (ht : Timelines env w)
    (hn : Named w) (hstatus : ∀ {u m} status, P u m → P u { m with status := status }) :
    ShowsOnly env w now P ↔ ∀ u id, ∀ m ∈ w.timeline id,
      w.readable u id = true ∨ (u, m.id) ∈ w.favoriteMessages → P u m := by
  constructor
  · rintro h u id m hm (hread | hmem)
    · obtain ⟨details, hdetails, rfl⟩ :=
        messageDetails_of (ht.findMessage hm) ((ht.home_of_mem hm).symm ▸ hread)
      exact h.details hdetails
    · exact h.favorites m (mem_favoriteMessages.mpr ⟨m.id, hmem, ht.findMessage hm⟩)
  · intro h
    have hfound : ∀ {u i m}, findMessage w.toStore i = some m →
        w.readable u m.conversationId = true → P u m := by
      intro u i m hfind hread
      obtain ⟨-, c, hm⟩ := findMessage_some hfind
      exact h u c m hm (.inl (ht.home_of_mem hm ▸ hread))
    constructor
    · intro u id before limit l hok m hm
      obtain ⟨hread, m₀, hm₀, -, rfl⟩ := messages_ok hok hm
      exact hstatus _ (h u id m₀ hm₀ (.inl hread))
    · intro u i details hok
      obtain ⟨hfind, hread⟩ := readableMessage_ok (messageDetails_ok hok)
      exact hfound hfind hread
    · intro u m hm
      obtain ⟨i, hmem, hfind⟩ := mem_favoriteMessages.mp hm
      obtain ⟨rfl, c, hm⟩ := findMessage_some hfind
      exact h u c m hm (.inr hmem)
    · intro u data hok m hm
      obtain ⟨id, hm, i, c, hget, rfl, hread⟩ := exportPersonalData_ok hok hm
      exact h u c.id m hm (.inl (hn i c hget ▸ readable_of hget hread))
    · intro u i text hok
      obtain ⟨m, hm, htext⟩ := messageTextForTranslation_ok hok
      obtain ⟨hfind, hread⟩ := readableMessage_ok hm
      exact ⟨m, hfind, htext, hfound hfind hread⟩
    · intro u i attachment hok
      obtain ⟨m, duration, hm, haudio⟩ := messageAudioForTranscription_ok hok
      obtain ⟨hfind, hread⟩ := readableMessage_ok hm
      exact ⟨m, duration, hfind, haudio, hfound hfind hread⟩
    · intro u id items hok item hitem
      obtain ⟨hread, m, hm, hfile, hid⟩ := groupFiles_ok hok hitem
      exact ⟨m, hm, hid, hfile, h u id m hm (.inl hread)⟩
    · intro u ids target mode ms w' hr i hi
      obtain ⟨m, hfind, hread⟩ := forwardMessages_readable hr hi
      exact ⟨m, hfind, hfound hfind hread⟩

/-- Whatever the readers show a user is of a conversation the user is a member of. -/
def MembersOnly (env : Env) (w : World) : Prop :=
  ∀ now, ShowsOnly env w now fun u m => w.readable u m.conversationId = true

/-- The others check. -/
theorem membersOnly_iff (ht : Timelines env w) (hn : Named w) : MembersOnly env w ↔
    ∀ u, ∀ m ∈ favoriteMessages w.toStore u, w.readable u m.conversationId = true := by
  constructor
  · exact fun h u => (h 0).favorites
  · intro h now
    refine (showsOnly_iff ht hn fun _ hread => hread).mpr fun u id m hm hshown => ?_
    rcases hshown with hread | hmem
    · exact ht.home_of_mem hm ▸ hread
    · exact h u m (mem_favoriteMessages.mpr ⟨m.id, hmem, ht.findMessage hm⟩)

/-! ## Favourites -/

/-- The user has a favourite in the conversation. -/
def Store.Cherishes (s : Store) (u : UserId) (id : ConversationId) : Prop :=
  ∃ m ∈ IamRust.favoriteMessages s u, m.conversationId = id

/-- The operation takes a group from a user with a favourite in it. -/
def Op.Strands (w : World) : Op → Prop
  | .leaveGroup actor id _ => w.Cherishes actor id
  | .removeGroupMember _ id target _ => w.Cherishes target id
  | .disbandGroup _ id _ => ∃ u, w.Cherishes u id
  | _ => False

/-- Whoever loses a group: but for a deleted account, with its favourites, they keep them. -/
theorem Op.strands_of_removes {id : ConversationId} (hc : w.Cherishes u id)
    (hremoves : op.Removes u id)
    (hdelete : ∀ password confirmation now, op ≠ .deleteAccount u password confirmation now) :
    op.Strands w := by
  cases op
  case leaveGroup => exact hremoves.1 ▸ hremoves.2 ▸ hc
  case removeGroupMember => exact hremoves.1 ▸ hremoves.2 ▸ hc
  case disbandGroup =>
    obtain rfl : id = _ := hremoves
    exact ⟨u, hc⟩
  case deleteAccount =>
    obtain rfl : u = _ := hremoves
    exact absurd rfl (hdelete _ _ _)
  all_goals exact hremoves.elim

/-- A message with the id is found where one with the id was. -/
theorem Extends.findMessage {P : Message → Prop} (h : Extends env P w w') (ht : Timelines env w')
    (hfind : findMessage w.toStore i = some m) :
    ∃ m', findMessage w'.toStore i = some m' ∧ m.Amends m' := by
  obtain ⟨rfl, c, hm⟩ := findMessage_some hfind
  obtain ⟨j, hj⟩ := Store.messageAt_of_mem hm
  obtain ⟨m', hm', hamends⟩ := h.kept c j m hj
  obtain ⟨m'', hfind'⟩ := findMessage_isSome (Store.mem_of_messageAt hm')
  obtain ⟨hid, c', hm''⟩ := findMessage_some hfind'
  obtain ⟨k, hk⟩ := Store.messageAt_of_mem hm''
  obtain ⟨rfl, rfl⟩ := ht.unique hk hm' hid
  cases hk.symm.trans hm'
  exact ⟨m', hamends.id_eq ▸ hfind', hamends⟩

/-- A favourite is an old one, or its user adds it in the step. -/
theorem Op.favorite (hr : (op.run env).Runs w () w') (hmem : (u, i) ∈ w'.favoriteMessages) :
    ((u, i) ∈ w.favoriteMessages ∧
      ∀ password confirmation now, op ≠ .deleteAccount u password confirmation now) ∨
    (∃ m, findMessage w.toStore i = some m ∧ w.readable u m.conversationId = true) ∧
      op = .setMessageFavorite u i true := by
  cases op
  case deleteAccount actor password confirmation now =>
    simp only [Op.run, Tx.runs_void, IamRust.deleteAccount, deleteAccountInStore,
      Tx.runs_failIf_bind, Tx.runs_get_bind, Tx.runs_okOr_bind] at hr
    obtain ⟨_, -, account, hacc, -, hr⟩ := hr
    simp [detachAccountFromConversations, anonymizeAccount, purgeAccountRelationships,
      revokeUserSessions, revokeTokens, appendEvent_runs, (activeAccount_some.mp hacc).1] at hr
    subst hr
    have hmem : (u, i) ∈ w.favoriteMessages.filter fun pair => pair.1 ≠ actor := hmem
    obtain ⟨hmem, hne⟩ := Finset.mem_filter.mp hmem
    refine .inl ⟨hmem, fun _ _ _ hop => ?_⟩
    cases hop
    exact hne rfl
  case setMessageFavorite actor messageId favorite =>
    simp only [Op.run, Tx.runs_void, IamRust.setMessageFavorite, Tx.runs_get_bind,
      Tx.runs_okOr_bind, Tx.runs_failIf_bind, update_runs] at hr
    obtain ⟨_, m, hfind, c, hget, hread, -, rfl⟩ := hr
    have hmem : (u, i) ∈ if favorite then insert (actor, messageId) w.favoriteMessages
      else w.favoriteMessages.erase (actor, messageId) := hmem
    cases favorite with
    | false => exact .inl ⟨Finset.mem_of_mem_erase hmem, fun _ _ _ hop => by cases hop⟩
    | true =>
      rcases Finset.mem_insert.mp hmem with heq | hmem
      · cases heq
        exact .inr ⟨⟨m, hfind, readable_of hget (Bool.of_not_eq_false hread)⟩, rfl⟩
      · exact .inl ⟨hmem, fun _ _ _ hop => by cases hop⟩
  all_goals
    have hsame : w'.favoriteMessages = w.favoriteMessages :=
      Op.same (f := .favoriteMessages) hr (by dsimp only [Op.touches]; decide)
    exact .inl ⟨hsame ▸ hmem, fun _ _ _ hop => by cases hop⟩

/-- Every favourite is a stored message. -/
def Found (w : World) : Prop :=
  ∀ u i, (u, i) ∈ w.favoriteMessages → ∃ m, findMessage w.toStore i = some m

theorem found_inductive (hu : Function.Injective env.uuid) :
    (service env).Inductive fun w => Timelines env w ∧ Found w where
  init w h := by
    refine ⟨(timelines_inductive hu).init w h, fun u i hmem => ?_⟩
    have h : w = World.init := h
    subst h
    exact absurd hmem (Finset.notMem_empty _)
  step w op w' h hr := by
    have ht := (timelines_inductive hu).step w op w' h.1 hr
    refine ⟨ht, fun u i hmem => ?_⟩
    have hfound : ∃ m, findMessage w.toStore i = some m := by
      rcases Op.favorite hr hmem with ⟨hold, -⟩ | ⟨⟨m, hfind, -⟩, -⟩
      · exact h.2 u i hold
      · exact ⟨m, hfind⟩
    obtain ⟨m, hfind⟩ := hfound
    obtain ⟨m', hfind', -⟩ := (Op.grown hr).findMessage ht hfind
    exact ⟨m', hfind'⟩

/-- The user of a favourite stays a member, if the step does not strand it. -/
theorem Op.favorite_readable (hr : (op.run env).Runs w () w') (ht : Timelines env w')
    (hfresh : w.conversations.get (env.uuid w.nextUuid) = none) (hfound : Found w)
    (h : ∀ u, ∀ m ∈ favoriteMessages w.toStore u, w.readable u m.conversationId = true)
    (hop : ¬ op.Strands w) : ∀ m' ∈ favoriteMessages w'.toStore u,
      w'.readable u m'.conversationId = true := by
  intro m' hm'
  obtain ⟨i, hmem, hfind'⟩ := mem_favoriteMessages.mp hm'
  have hstays : ∃ m, findMessage w.toStore i = some m ∧ w.readable u m.conversationId = true ∧
      ¬ op.Removes u m.conversationId := by
    rcases Op.favorite hr hmem with ⟨hold, hdelete⟩ | ⟨⟨m, hfind, hread⟩, rfl⟩
    · obtain ⟨m, hfind⟩ := hfound u i hold
      have hfavorite := mem_favoriteMessages.mpr ⟨i, hold, hfind⟩
      exact ⟨m, hfind, h u m hfavorite, fun hremoves =>
        hop (op.strands_of_removes ⟨m, hfavorite, rfl⟩ hremoves hdelete)⟩
    · exact ⟨m, hfind, hread, id⟩
  obtain ⟨m, hfind, hread, hkept⟩ := hstays
  obtain ⟨m'', hfind'', hamends⟩ := (Op.grown hr).findMessage ht hfind
  cases hfind''.symm.trans hfind'
  rw [hamends.conversationId_eq]
  exact (op.readable hr hfresh).mpr (.inl ⟨hread, hkept⟩)

/-- Whom such an operation takes a group from. -/
theorem Op.Strands.removes (env : Env) (h : op.Strands w) : ∃ u id, w.Cherishes u id ∧ op.Removes u id ∧
    ¬ op.Admits env w u id ∧ Field.favoriteMessages ∉ op.touches ++ logFields := by
  cases op
  case leaveGroup actor id now =>
    exact ⟨actor, id, h, ⟨rfl, rfl⟩, not_false, by dsimp only [Op.touches]; decide⟩
  case removeGroupMember actor id target now =>
    exact ⟨target, id, h, ⟨rfl, rfl⟩, not_false, by dsimp only [Op.touches]; decide⟩
  case disbandGroup actor id now =>
    obtain ⟨u, h⟩ := h
    exact ⟨u, id, h, rfl, not_false, by dsimp only [Op.touches]; decide⟩
  all_goals exact h.elim

/-- The favourite is shown to the user who lost the group. -/
theorem Op.Strands.shown (h : op.Strands w) (hr : (op.run env).Runs w () w')
    (ht : Timelines env w') (hfresh : w.conversations.get (env.uuid w.nextUuid) = none) :
    ∃ u, ∃ m' ∈ favoriteMessages w'.toStore u, w'.readable u m'.conversationId = false := by
  obtain ⟨u, id, ⟨m, hm, rfl⟩, hremoves, hadmits, hkept⟩ := h.removes env
  obtain ⟨i, hmem, hfind⟩ := mem_favoriteMessages.mp hm
  have hsame : w'.favoriteMessages = w.favoriteMessages := Op.same hr hkept
  obtain ⟨m', hfind', hamends⟩ := (Op.grown hr).findMessage ht hfind
  refine ⟨u, m', mem_favoriteMessages.mpr ⟨i, hsame ▸ hmem, hfind'⟩, ?_⟩
  rw [hamends.conversationId_eq, Bool.eq_false_iff]
  intro hread
  rcases (op.readable hr hfresh).mp hread with ⟨-, hkept⟩ | h
  · exact hkept hremoves
  · exact hadmits h

/-- **Step.** -/
theorem MembersOnly.step_iff (hu : Function.Injective env.uuid) (hw : (service env).Reachable w)
    (hr : (op.run env).Runs w () w') (h : MembersOnly env w) :
    MembersOnly env w' ↔ ¬ op.Strands w := by
  obtain ⟨ht, hfound⟩ := (found_inductive hu).reachable hw
  have hfresh := ((placed_inductive hu).reachable hw).fresh hu
  have ht' := (timelines_inductive hu).step w op w' ht hr
  have hn := (named_inductive env).reachable hw
  rw [membersOnly_iff ht' ((named_inductive env).step w op w' hn hr)]
  constructor
  · intro hall hstrands
    obtain ⟨u, m, hm, hread⟩ := hstrands.shown hr ht' hfresh
    exact Bool.false_ne_true (hread.symm.trans (hall u m hm))
  · intro hop u
    exact op.favorite_readable hr ht' hfresh hfound (fun u => (h 0).favorites) hop

theorem membersOnly_init (hu : Function.Injective env.uuid) (h : (service env).init w) :
    MembersOnly env w := by
  rw [membersOnly_iff ((timelines_inductive hu).init w h) ((named_inductive env).init w h)]
  intro u m hm
  obtain ⟨i, hmem, -⟩ := mem_favoriteMessages.mp hm
  have h : w = World.init := h
  subst h
  exact absurd hmem (Finset.notMem_empty _)

end

/-! ## Every run -/

/-- The runs in which nobody loses a group they have a favourite in. -/
def cherishingService (env : Env) : LTS World Op :=
  (service env).restrict fun w op => ¬ op.Strands w

/-- **Messages are shown to members only.** In every run without a step that takes a group from a
user with a favourite in it, each message shown to a user, or its text or attachment, is of a
conversation the user is then a member of; and such a step always ends that. -/
theorem members_only (env : Env) (hu : Function.Injective env.uuid) (w : World)
    (hw : (cherishingService env).Reachable w) : MembersOnly env w ∧
    ∀ (op : Op) w', (op.run env).Runs w () w' → (MembersOnly env w' ↔ ¬ op.Strands w) := by
  have hinductive : (cherishingService env).Inductive fun w =>
      (service env).Reachable w ∧ MembersOnly env w := by
    refine ⟨fun w h => ⟨.init h, membersOnly_init hu h⟩, fun w op w' h hstep => ?_⟩
    exact ⟨h.1.step hstep.2, (h.2.step_iff hu h.1 hstep.2).mpr hstep.1⟩
  obtain ⟨hreach, hall⟩ := hinductive.reachable hw
  exact ⟨hall, fun op w' hr => hall.step_iff hu hreach hr⟩

/-- What can be computed of it. -/
def Op.keepsFavorites (w : World) : Op → Bool
  | .leaveGroup actor id _ => (favoriteMessages w.toStore actor).all (·.conversationId != id)
  | .removeGroupMember _ _ _ _ | .disbandGroup _ _ _ => false
  | _ => true

theorem Op.not_strands {w : World} {op : Op} (h : op.keepsFavorites w = true) :
    ¬ op.Strands w := by
  cases op
  case leaveGroup actor id now =>
    rintro ⟨m, hm, rfl⟩
    simpa using List.all_eq_true.mp h m hm
  all_goals first | exact not_false | cases h

/-- Bob leaves the group with a favourite of Alice's behind him, and keeps one of their direct
conversation. -/
theorem members_only_left : ∃ w, (cherishingService Env.numbered).Reachable w ∧
    MembersOnly Env.numbered w ∧ w.readable 4 11 = false ∧
    (favoriteMessages w.toStore 1).map (·.conversationId) = [11] ∧
    (favoriteMessages w.toStore 4).map (·.conversationId) = [9] := by
  obtain ⟨w, hw, hp⟩ := reaches_checked Env.numbered Op.keepsFavorites (fun _ _ => Op.not_strands)
    (aliceAndBob ++ [.sendMessageRequest 4 11 (.text 100 "hi") 0, .setMessageFavorite 1 14 true,
      .sendMessageRequest 1 9 (.text 100 "hi") 0, .setMessageFavorite 4 16 true,
      .leaveGroup 4 11 0])
    (fun w => !w.readable 4 11 &&
      decide ((favoriteMessages w.toStore 1).map (·.conversationId) = [11]) &&
      decide ((favoriteMessages w.toStore 4).map (·.conversationId) = [9])) (by decide +kernel)
  simp only [Bool.and_eq_true, Bool.not_eq_true', decide_eq_true_eq] at hp
  exact ⟨w, hw, (members_only Env.numbered Env.numbered_injective w hw).1, hp.1.1, hp.1.2, hp.2⟩

/-- Alice removes Bob from the group: its message among his favourites is still shown to him. -/
theorem removed_favorite : ∃ w, (service Env.numbered).Reachable w ∧
    ¬ ∀ actor, ∀ m ∈ favoriteMessages w.toStore actor, w.readable actor m.conversationId = true := by
  obtain ⟨w, hw, hp⟩ := reaches Env.numbered
    (aliceAndBob ++ [.sendMessageRequest 1 11 (.text 100 "hi") 0, .setMessageFavorite 4 14 true,
      .removeGroupMember 1 11 4 0])
    (fun w => (favoriteMessages w.toStore 4).any fun m => !w.readable 4 m.conversationId)
    (by decide +kernel)
  obtain ⟨m, hm, hread⟩ := List.any_eq_true.mp hp
  refine ⟨w, reachable_of_run hw, fun h => ?_⟩
  rw [h 4 m hm] at hread
  cases hread

end IamRust
