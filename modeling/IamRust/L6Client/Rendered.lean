import IamRust.L0Core.LTS
import IamRust.L3Service.Reads
import Mathlib.Data.List.Sort

/-!
# The rendered timeline

The messages the client shows of the selected conversation. Realtime messages
and pages of the history are merged into it by `client_message_id` alone, and
a page that is applied replaces everything.

A `Copy` is a message as it was delivered with the number of its version at the
server. Beside the entries of the timeline, the messages they stand for and the
copies delivered so far are recorded.

* `rendered_latest`: every message that was delivered is shown in its latest
  version, and merging is between copies of one sender only, if senders do not
  share a client id, what is merged or applied is not older than what it
  stands for, and a page that replaces the timeline has all of it.
* `shared_client_id_lost`: two senders with the same client id.
-/
namespace IamRust

open Core

/-- mirrors apps/desktop/src/model.rs:32-43 -/
structure ChatMessage where
  messageId : Option MessageId
  clientMessageId : Option MessageId
  replyTo : Option MessageId
  author : String
  body : String
  outgoing : Bool
  timestamp : String
  status : String
  attachment : Option Attachment
  deriving DecidableEq

/-- mirrors apps/desktop/src/model.rs:215-221 -/
def displayName (profile : UserProfile) : String :=
  if (Text.trim profile.nickname).isEmpty then profile.username else profile.nickname

/-- mirrors apps/desktop/src/model.rs:223-232 -/
def messageBody : MessageContent → String
  | .text text | .system text => text
  | .image _ => "[图片]"
  | .file attachment => "[文件] " ++ attachment.fileName
  | .audio _ durationMs => "[语音] " ++ Nat.repr (durationMs / 1000) ++ " 秒"
  | .sticker _ name => "[表情] " ++ name
  | .forwardBundle title _ => "[聊天记录] " ++ title

/-- mirrors apps/desktop/src/model.rs:234-243 -/
def messageStatus : MessageStatus → String
  | .pending => "发送中"
  | .sent => "已发送"
  | .delivered => "已送达"
  | .read => "已读"
  | .failed => "发送失败"
  | .recalled => "已撤回"

section
variable (clock : DateTime → String) (bootstrap : BootstrapResponse)

/-- `clock` formats a time as `%m-%d %H:%M`.
mirrors apps/desktop/src/model.rs:173-212 -/
def renderMessage (message : Message) : ChatMessage :=
  let outgoing := message.senderId == bootstrap.profile.id
  { messageId := some message.id
    clientMessageId := some message.clientMessageId
    replyTo := message.replyTo
    author :=
      if outgoing then "我"
      else ((bootstrap.friends.find? (·.id == message.senderId)).map displayName).getD "群成员"
    body := messageBody message.content
    outgoing := outgoing
    timestamp := clock (message.serverCreatedAt.getD message.createdAt)
    status := messageStatus message.status
    attachment := message.content.attachment? }

/-- mirrors apps/desktop/src/model.rs:167-213 -/
def messagesFromDomain (messages : List Message) : List ChatMessage :=
  messages.map (renderMessage clock bootstrap)

/-- `sequence.unwrap_or(u64::MAX)`, then `created_at`. -/
def timelineOrder (left right : Message) : Prop :=
  left.sequence.getD u64Max < right.sequence.getD u64Max ∨
    (left.sequence.getD u64Max = right.sequence.getD u64Max ∧ left.createdAt ≤ right.createdAt)

instance : DecidableRel timelineOrder := fun _ _ => inferInstanceAs (Decidable (_ ∨ _))

/-- The first entry with the key replaced, or a new one at the end. -/
def replaceFirst {α κ : Type} [DecidableEq κ] (key : α → κ) (new : α) : List α → List α
  | [] => [new]
  | old :: rest => if key old = key new then new :: rest else old :: replaceFirst key new rest

/-- mirrors apps/desktop/src/ui.rs:3147-3156 -/
def applyRealtimeMessage (messages : List ChatMessage) (message : Message) : List ChatMessage :=
  replaceFirst (·.clientMessageId) (renderMessage clock bootstrap message) messages

/-- mirrors apps/desktop/src/ui.rs:2662-2677 -/
def applyTimeline (messages : List Message) : List ChatMessage :=
  messagesFromDomain clock bootstrap (messages.insertionSort timelineOrder)

/-- `messages.retain(|message| existing.insert(message.client_message_id))`. -/
def retainNew (existing : List MessageId) : List Message → List Message
  | [] => []
  | message :: rest =>
    if message.clientMessageId ∈ existing then retainNew existing rest
    else message :: retainNew (message.clientMessageId :: existing) rest

/-- mirrors apps/desktop/src/ui.rs:2699-2718 -/
def prependTimeline (messages : List ChatMessage) (older : List Message) : List ChatMessage :=
  messagesFromDomain clock bootstrap (retainNew (messages.filterMap (·.clientMessageId))
    (older.insertionSort timelineOrder)) ++ messages

/-- `matches!(message.status, MessageStatus::Pending | MessageStatus::Failed)`. -/
def Message.unsent (message : Message) : Bool :=
  message.status == .pending || message.status == .failed

/-- The page, and what the cache has of messages that were not sent.
mirrors apps/desktop/src/ui.rs:6770-6793 -/
def loadTimeline (page cached : List Message) : List Message :=
  page ++ retainNew (page.map (·.clientMessageId)) (cached.filter (·.unsent))

end

/-! ## Deliveries -/

/-- A message as it was delivered, with the number of its version. -/
structure Copy where
  message : Message
  version : Nat

/-- The entries, the messages they stand for and the copies delivered so far. -/
structure Rendered where
  messages : List ChatMessage
  shown : List Message
  delivered : List Copy

/-- `apply` also stands for the cached messages shown without a connection. -/
inductive Merge where
  | realtime (copy : Copy)
  | apply (page : List Copy)
  | prepend (page : List Copy)
  | load (page : List Copy) (cached : List Message)

/-- The copies a step delivers. -/
def Merge.copies : Merge → List Copy
  | .realtime copy => [copy]
  | .apply page | .prepend page | .load page _ => page

/-- The messages a step brings: the copies, and those of the cache that were not sent. -/
def Merge.messages : Merge → List Message
  | .realtime copy => [copy.message]
  | .apply page | .prepend page => page.map (·.message)
  | .load page cached => page.map (·.message) ++ cached.filter (·.unsent)

/-- The timeline is replaced. -/
def Merge.replaces : Merge → Bool
  | .realtime _ | .prepend _ => false
  | .apply _ | .load _ _ => true

section
variable (clock : DateTime → String) (bootstrap : BootstrapResponse)

/-- The entries behind a step. -/
def Merge.entries (messages : List ChatMessage) : Merge → List ChatMessage
  | .realtime copy => applyRealtimeMessage clock bootstrap messages copy.message
  | .apply page => applyTimeline clock bootstrap (page.map (·.message))
  | .prepend page => prependTimeline clock bootstrap messages (page.map (·.message))
  | .load page cached =>
    applyTimeline clock bootstrap (loadTimeline (page.map (·.message)) cached)

/-- The messages they stand for. -/
def Merge.shown (shown : List Message) : Merge → List Message
  | .realtime copy => replaceFirst (·.clientMessageId) copy.message shown
  | .apply page => (page.map (·.message)).insertionSort timelineOrder
  | .prepend page => retainNew (shown.map (·.clientMessageId))
      ((page.map (·.message)).insertionSort timelineOrder) ++ shown
  | .load page cached =>
    (loadTimeline (page.map (·.message)) cached).insertionSort timelineOrder

/-- The merges of the selected conversation, from an empty timeline. -/
def rendering : LTS Rendered Merge where
  init x := x = ⟨[], [], []⟩
  step x l x' := x' =
    ⟨l.entries clock bootstrap x.messages, l.shown x.shown, x.delivered ++ l.copies⟩

end

/-! ## The condition -/

/-- No copy of the message is of a later version. -/
def Latest (delivered : List Copy) (copy : Copy) : Prop :=
  ∀ e ∈ delivered, e.message.id = copy.message.id → e.version ≤ copy.version

/-- A client id that comes again comes from the same sender. -/
def Merge.Apart (x : Rendered) (l : Merge) : Prop :=
  ∀ a ∈ x.shown ++ l.messages, ∀ b ∈ l.messages, a.clientMessageId = b.clientMessageId →
    a.senderId = b.senderId

/-- Every message delivered so far is in the page, and none in an older version. -/
structure Complete (delivered page : List Copy) : Prop where
  all : ∀ e ∈ delivered, ∃ copy ∈ page, copy.message.id = e.message.id
  latest : ∀ copy ∈ page, Latest (delivered ++ page) copy

/-- Under its client id the copy is new to the timeline, and the only one of the page. -/
def Unclaimed (shown : List Message) (page : List Copy) (copy : Copy) : Prop :=
  (∀ m ∈ shown, m.clientMessageId ≠ copy.message.clientMessageId) ∧
    ∀ other ∈ page, other.message.clientMessageId = copy.message.clientMessageId →
      other.message = copy.message

/-- What a step brings is not older than what it takes the place of, and takes the place of no
other message that was delivered. -/
def Merge.Current (x : Rendered) : Merge → Prop
  | .realtime copy => Latest x.delivered copy ∧
      ∀ old, x.shown.find? (fun m => m.clientMessageId == copy.message.clientMessageId) = some old →
        ∀ e ∈ x.delivered, e.message.id = old.id → e.message.id = copy.message.id
  | .apply page | .load page _ => Complete x.delivered page
  | .prepend page => ∀ copy ∈ page,
      (Unclaimed x.shown page copy ∧ Latest (x.delivered ++ page) copy) ∨
        ∃ e ∈ x.delivered, e.message.id = copy.message.id ∧ copy.version ≤ e.version

def Merge.Gentle (x : Rendered) (l : Merge) : Prop := l.Apart x ∧ l.Current x

/-! ## Lists -/

section
variable {α β κ μ : Type} [DecidableEq κ] [DecidableEq μ] {key : α → κ} {new : α} {l : List α}

theorem map_replaceFirst {f : α → β} {key' : β → μ}
    (h : ∀ a, key' (f a) = key' (f new) ↔ key a = key new) :
    (replaceFirst key new l).map f = replaceFirst key' (f new) (l.map f) := by
  induction l with
  | nil => rfl
  | cons old rest ih =>
    simp only [replaceFirst, List.map_cons, h old]
    split
    · rfl
    · rw [List.map_cons, ih]

theorem new_mem_replaceFirst : new ∈ replaceFirst key new l := by
  induction l with
  | nil => simp [replaceFirst]
  | cons old rest ih =>
    unfold replaceFirst
    split
    · simp
    · exact List.mem_cons_of_mem _ ih

/-- Only the entry that is found goes. -/
theorem mem_replaceFirst {a : α} (ha : a ∈ l)
    (h : l.find? (fun b => key b == key new) ≠ some a) : a ∈ replaceFirst key new l := by
  induction l with
  | nil => cases ha
  | cons old rest ih =>
    unfold replaceFirst
    split
    · rename_i hkey
      rcases List.mem_cons.mp ha with rfl | ha
      · exact absurd (by simp [hkey]) h
      · exact List.mem_cons_of_mem _ ha
    · rename_i hkey
      rcases List.mem_cons.mp ha with rfl | ha
      · exact List.mem_cons_self
      · refine List.mem_cons_of_mem _ (ih ha ?_)
        rwa [List.find?_cons_of_neg (by simpa using hkey)] at h

end

section
variable {existing : List MessageId} {l : List Message} {m : Message}

/-- A message whose client id nobody else has is retained. -/
theorem mem_retainNew (hm : m ∈ l) (hnew : m.clientMessageId ∉ existing)
    (halone : ∀ a ∈ l, a.clientMessageId = m.clientMessageId → a = m) :
    m ∈ retainNew existing l := by
  induction l generalizing existing with
  | nil => cases hm
  | cons a rest ih =>
    unfold retainNew
    by_cases ha : a = m
    · subst ha
      rw [if_neg hnew]
      exact List.mem_cons_self
    · have hrest := (List.mem_cons.mp hm).resolve_left (Ne.symm ha)
      have hkey : a.clientMessageId ≠ m.clientMessageId := fun h =>
        ha (halone a List.mem_cons_self h)
      have halone' := fun b hb => halone b (List.mem_cons_of_mem a hb)
      split
      · exact ih hrest hnew halone'
      · exact List.mem_cons_of_mem _ (ih hrest (by simp [hnew, hkey.symm]) halone')

/-- The client id of a message that is not retained was there before. -/
theorem retainNew_client (existing : List MessageId) (hm : m ∈ l) :
    m.clientMessageId ∈ existing ∨
      ∃ a ∈ retainNew existing l, a.clientMessageId = m.clientMessageId := by
  induction l generalizing existing with
  | nil => cases hm
  | cons a rest ih =>
    unfold retainNew
    split
    · rename_i hold
      rcases List.mem_cons.mp hm with rfl | hm
      · exact .inl hold
      · exact ih existing hm
    · rcases List.mem_cons.mp hm with rfl | hm
      · exact .inr ⟨_, List.mem_cons_self, rfl⟩
      · rcases ih (a.clientMessageId :: existing) hm with h | ⟨b, hb, hkey⟩
        · rcases List.mem_cons.mp h with h | h
          · exact .inr ⟨a, List.mem_cons_self, h.symm⟩
          · exact .inl h
        · exact .inr ⟨b, List.mem_cons_of_mem _ hb, hkey⟩

theorem mem_of_retainNew (h : m ∈ retainNew existing l) : m ∈ l := by
  induction l generalizing existing with
  | nil => cases h
  | cons a rest ih =>
    unfold retainNew at h
    split at h
    · exact List.mem_cons_of_mem _ (ih h)
    · rcases List.mem_cons.mp h with rfl | h
      · exact List.mem_cons_self
      · exact List.mem_cons_of_mem _ (ih h)

theorem mem_insertionSort {r : Message → Message → Prop} [DecidableRel r] :
    m ∈ l.insertionSort r ↔ m ∈ l :=
  (List.perm_insertionSort r l).mem_iff

end

/-! ## Runs -/

/-- The message itself, or a copy of it of the same sender. -/
def MergedInto (shown : List Message) (m : Message) : Prop :=
  ∃ a ∈ shown, a.senderId = m.senderId ∧ a.clientMessageId = m.clientMessageId

theorem MergedInto.of_mem {shown : List Message} {m : Message} (h : m ∈ shown) :
    MergedInto shown m :=
  ⟨m, h, rfl, rfl⟩

section
variable {clock : DateTime → String} {bootstrap : BootstrapResponse} {x x' : Rendered} {l : Merge}
  {page : List Copy}

/-- The entries are those of the messages shown, and of every message delivered the latest version
is shown. -/
structure Rendered.UpToDate (clock : DateTime → String) (bootstrap : BootstrapResponse)
    (x : Rendered) : Prop where
  entries : x.messages = messagesFromDomain clock bootstrap x.shown
  latest : ∀ e ∈ x.delivered, ∃ d ∈ x.delivered, d.message.id = e.message.id ∧
    Latest x.delivered d ∧ d.message ∈ x.shown

/-- What is done to the entries is done to the messages. -/
theorem Merge.entries_shown (shown : List Message) (l : Merge) :
    l.entries clock bootstrap (messagesFromDomain clock bootstrap shown) =
      messagesFromDomain clock bootstrap (l.shown shown) := by
  cases l with
  | realtime copy =>
    refine (map_replaceFirst fun a => ?_).symm
    simp [renderMessage]
  | apply page => rfl
  | prepend page =>
    have hids : (messagesFromDomain clock bootstrap shown).filterMap (·.clientMessageId) =
        shown.map (·.clientMessageId) := by
      rw [messagesFromDomain, List.filterMap_map]
      exact List.filterMap_eq_map (f := fun m : Message => m.clientMessageId) ▸ rfl
    rw [entries, prependTimeline, hids, Merge.shown, messagesFromDomain, messagesFromDomain,
      messagesFromDomain, List.map_append]
  | load page cached => rfl

theorem Rendered.UpToDate.realtime {copy : Copy} (h : x.UpToDate clock bootstrap)
    (hc : Merge.Current x (.realtime copy)) (e : Copy) (he : e ∈ x.delivered ++ [copy]) :
    ∃ d ∈ x.delivered ++ [copy], d.message.id = e.message.id ∧
      Latest (x.delivered ++ [copy]) d ∧ d.message ∈ Merge.shown x.shown (.realtime copy) := by
  obtain ⟨hlatest, hfound⟩ := hc
  by_cases hid : e.message.id = copy.message.id
  · refine ⟨copy, by simp, hid.symm, fun a ha haid => ?_, new_mem_replaceFirst⟩
    rcases List.mem_append.mp ha with ha | ha
    · exact hlatest a ha haid
    · rw [List.mem_singleton.mp ha]
  · have he : e ∈ x.delivered := by
      rcases List.mem_append.mp he with he | he
      · exact he
      · exact absurd (by rw [List.mem_singleton.mp he]) hid
    obtain ⟨d, hd, hdid, hdlatest, hshown⟩ := h.latest e he
    refine ⟨d, List.mem_append_left _ hd, hdid, fun a ha haid => ?_, ?_⟩
    · rcases List.mem_append.mp ha with ha | ha
      · exact hdlatest a ha haid
      · rw [List.mem_singleton.mp ha, hdid] at haid
        exact absurd haid.symm hid
    · refine mem_replaceFirst hshown fun hfind => hid ?_
      rw [← hdid]
      exact hfound _ hfind d hd rfl

/-- A page that replaces the timeline with all there is. -/
theorem Complete.latest_shown {shown : List Message} {delivered : List Copy}
    (h : Complete delivered page) (hshown : ∀ copy ∈ page, copy.message ∈ shown) (e : Copy)
    (he : e ∈ delivered ++ page) : ∃ d ∈ delivered ++ page, d.message.id = e.message.id ∧
      Latest (delivered ++ page) d ∧ d.message ∈ shown := by
  obtain ⟨copy, hcopy, hid⟩ : ∃ copy ∈ page, copy.message.id = e.message.id := by
    rcases List.mem_append.mp he with he | he
    · exact h.all e he
    · exact ⟨e, he, rfl⟩
  exact ⟨copy, List.mem_append_right _ hcopy, hid, h.latest copy hcopy, hshown copy hcopy⟩

theorem Rendered.UpToDate.prepend (h : x.UpToDate clock bootstrap)
    (hc : Merge.Current x (.prepend page)) (e : Copy) (he : e ∈ x.delivered ++ page) :
    ∃ d ∈ x.delivered ++ page, d.message.id = e.message.id ∧
      Latest (x.delivered ++ page) d ∧ d.message ∈ Merge.shown x.shown (.prepend page) := by
  by_cases hnew : ∃ copy ∈ page, copy.message.id = e.message.id ∧
      Unclaimed x.shown page copy ∧ Latest (x.delivered ++ page) copy
  · obtain ⟨copy, hcopy, hid, ⟨htimeline, hpage⟩, hlatest⟩ := hnew
    refine ⟨copy, List.mem_append_right _ hcopy, hid, hlatest, List.mem_append_left _ ?_⟩
    refine mem_retainNew (mem_insertionSort.mpr (List.mem_map_of_mem hcopy)) ?_ fun a ha hkey => ?_
    · simpa [List.mem_map] using htimeline
    · obtain ⟨other, hother, rfl⟩ := List.mem_map.mp (mem_insertionSort.mp ha)
      exact hpage other hother hkey
  · -- the page has nothing newer than what was delivered before
    have hold : ∀ copy ∈ page, copy.message.id = e.message.id →
        ∃ a ∈ x.delivered, a.message.id = copy.message.id ∧ copy.version ≤ a.version :=
      fun copy hcopy hid => (hc copy hcopy).resolve_left fun h => hnew ⟨copy, hcopy, hid, h⟩
    obtain ⟨a, ha, haid⟩ : ∃ a ∈ x.delivered, a.message.id = e.message.id := by
      rcases List.mem_append.mp he with he | he
      · exact ⟨e, he, rfl⟩
      · obtain ⟨a, ha, haid, -⟩ := hold e he rfl
        exact ⟨a, ha, haid⟩
    obtain ⟨d, hd, hdid, hdlatest, hshown⟩ := h.latest a ha
    refine ⟨d, List.mem_append_left _ hd, hdid.trans haid, fun b hb hbid => ?_,
      List.mem_append_right _ hshown⟩
    rcases List.mem_append.mp hb with hb | hb
    · exact hdlatest b hb hbid
    · obtain ⟨c, hcmem, hcid, hle⟩ := hold b hb (hbid.trans (hdid.trans haid))
      exact Nat.le_trans hle (hdlatest c hcmem (hcid.trans hbid))

theorem upToDate_inductive : ((rendering clock bootstrap).restrict Merge.Gentle).Inductive
    (Rendered.UpToDate clock bootstrap) where
  init x hx := by
    subst hx
    exact ⟨rfl, nofun⟩
  step x l x' h hs := by
    obtain ⟨⟨-, hcurrent⟩, rfl⟩ := hs
    refine ⟨by rw [h.entries]; exact Merge.entries_shown x.shown l, ?_⟩
    cases l with
    | realtime copy => exact h.realtime hcurrent
    | prepend page => exact h.prepend hcurrent
    | apply page =>
      exact Complete.latest_shown hcurrent fun copy hcopy =>
        mem_insertionSort.mpr (List.mem_map_of_mem hcopy)
    | load page cached =>
      exact Complete.latest_shown hcurrent fun copy hcopy =>
        mem_insertionSort.mpr (List.mem_append_left _ (List.mem_map_of_mem hcopy))

/-- What a step brings is shown, itself or a copy of the same sender. -/
theorem Merge.merged_messages (hapart : l.Apart x) :
    ∀ m ∈ l.messages, MergedInto (l.shown x.shown) m := by
  intro m hm
  cases l with
  | realtime copy =>
    rw [List.mem_singleton.mp hm]
    exact .of_mem new_mem_replaceFirst
  | apply page => exact .of_mem (mem_insertionSort.mpr hm)
  | prepend page =>
    have hsorted : m ∈ (page.map (·.message)).insertionSort timelineOrder :=
      mem_insertionSort.mpr hm
    rcases retainNew_client (x.shown.map (·.clientMessageId)) hsorted with hold | ⟨a, ha, hkey⟩
    · obtain ⟨a, ha, hkey⟩ := List.mem_map.mp hold
      exact ⟨a, List.mem_append_right _ ha,
        hapart a (List.mem_append_left _ ha) m hm hkey, hkey⟩
    · have hpage := mem_insertionSort.mp (mem_of_retainNew ha)
      exact ⟨a, List.mem_append_left _ ha,
        hapart a (List.mem_append_right _ hpage) m hm hkey, hkey⟩
  | load page cached =>
    rcases List.mem_append.mp hm with hpage | hcached
    · exact .of_mem (mem_insertionSort.mpr (List.mem_append_left _ hpage))
    · obtain ⟨a, ha, hmem, hkey⟩ : ∃ a, a ∈ Merge.messages (.load page cached) ∧
          a ∈ loadTimeline (page.map (·.message)) cached ∧
          a.clientMessageId = m.clientMessageId := by
        rcases retainNew_client ((page.map (·.message)).map (·.clientMessageId)) hcached with
          hold | ⟨a, ha, hkey⟩
        · obtain ⟨a, ha, hkey⟩ := List.mem_map.mp hold
          exact ⟨a, List.mem_append_left _ ha, List.mem_append_left _ ha, hkey⟩
        · exact ⟨a, List.mem_append_right _ (mem_of_retainNew ha), List.mem_append_right _ ha,
            hkey⟩
      exact ⟨a, mem_insertionSort.mpr hmem, hapart a (List.mem_append_right _ ha) m hm hkey, hkey⟩

/-- So is what was shown, unless the timeline is replaced. -/
theorem Merge.merged_shown (hapart : l.Apart x) (hl : l.replaces = false) :
    ∀ m ∈ x.shown, MergedInto (l.shown x.shown) m := by
  intro m hm
  cases l with
  | realtime copy =>
    by_cases hfound : x.shown.find?
        (fun a => a.clientMessageId == copy.message.clientMessageId) = some m
    · have hkey : m.clientMessageId = copy.message.clientMessageId := by
        simpa using List.find?_some hfound
      exact ⟨copy.message, new_mem_replaceFirst,
        (hapart m (List.mem_append_left _ hm) copy.message (by simp [messages]) hkey).symm,
        hkey.symm⟩
    · exact .of_mem (mem_replaceFirst hm hfound)
  | prepend page => exact .of_mem (List.mem_append_right _ hm)
  | apply page => cases hl
  | load page cached => cases hl

/-- **Nothing that was delivered is lost, and merging is between copies of one sender**, in every
run whose steps are gentle. -/
theorem rendered_latest (clock : DateTime → String) (bootstrap : BootstrapResponse) (x : Rendered)
    (hx : ((rendering clock bootstrap).restrict Merge.Gentle).Reachable x) :
    (∀ e ∈ x.delivered, ∃ d ∈ x.delivered, d.message.id = e.message.id ∧ Latest x.delivered d ∧
      renderMessage clock bootstrap d.message ∈ x.messages) ∧
    x.messages = messagesFromDomain clock bootstrap x.shown ∧
    ∀ l x', ((rendering clock bootstrap).restrict Merge.Gentle).step x l x' →
      (∀ m ∈ l.messages, MergedInto x'.shown m) ∧
      (l.replaces = false → ∀ m ∈ x.shown, MergedInto x'.shown m) := by
  have h := upToDate_inductive.reachable hx
  refine ⟨fun e he => ?_, h.entries, fun l x' hs => ?_⟩
  · obtain ⟨d, hd, hid, hlatest, hshown⟩ := h.latest e he
    exact ⟨d, hd, hid, hlatest, h.entries ▸ List.mem_map_of_mem hshown⟩
  · obtain ⟨⟨hapart, -⟩, rfl⟩ := hs
    exact ⟨Merge.merged_messages hapart, Merge.merged_shown hapart⟩

end

/-! ## A client id two senders share -/

/-- Alice is signed in and knows nobody. -/
def aliceAlone : BootstrapResponse where
  profile := {
    id := 1
    username := "alice"
    nickname := "Alice"
    avatarUrl := none
    avatarAttachmentId := none
    signature := ""
    gender := none
    birthday := none
    region := none
    presence := .online
    lastSeenAt := none }
  profilePrivacy := .default
  friends := []
  friendSettings := []
  friendRequests := []
  friendRequestProfiles := []
  conversations := []
  conversationStates := []
  cursor := 0

/-- Alice's text in the conversation 9, under the client id 0. -/
def aliceText : Message where
  id := 14
  clientMessageId := 0
  conversationId := 9
  senderId := 1
  sequence := some 1
  content := .text "hi"
  status := .sent
  replyTo := none
  mentions := []
  mentionAll := false
  createdAt := 0
  serverCreatedAt := some 0
  editedAt := none

/-- Bob's text, under the same client id. -/
def bobText : Message := { aliceText with id := 16, senderId := 4, sequence := some 2 }

/-- Alice's text comes with the first page and is recalled. -/
theorem rendered_latest_recalled : ∃ x,
    ((rendering (fun _ => "") aliceAlone).restrict Merge.Gentle).Reachable x ∧
    x.delivered = [⟨aliceText, 1⟩, ⟨aliceText.recalled 5, 2⟩] ∧
    ∀ e ∈ x.delivered, ∃ d ∈ x.delivered, d.message.id = e.message.id ∧ Latest x.delivered d ∧
      renderMessage (fun _ => "") aliceAlone d.message ∈ x.messages := by
  have hpage : Merge.Gentle ⟨[], [], []⟩ (.apply [⟨aliceText, 1⟩]) :=
    ⟨by simp [Merge.Apart, Merge.messages], by simp, by simp [Latest]⟩
  have hrecall : Merge.Gentle
      ⟨applyTimeline (fun _ => "") aliceAlone [aliceText], [aliceText], [⟨aliceText, 1⟩]⟩
      (.realtime ⟨aliceText.recalled 5, 2⟩) :=
    ⟨by simp [Merge.Apart, Merge.messages, Message.recalled], by simp [Latest],
      by simp [Message.recalled]⟩
  have hx : ((rendering (fun _ => "") aliceAlone).restrict Merge.Gentle).Reachable _ :=
    ⟨_, _, rfl, .cons ⟨hpage, rfl⟩ (.cons ⟨hrecall, rfl⟩ (.nil _))⟩
  exact ⟨_, hx, rfl, (rendered_latest (fun _ => "") aliceAlone _ hx).1⟩

/-- Alice's text is shown; Bob's comes in under the same client id and takes its place. -/
theorem shared_client_id_lost : ∃ x, (rendering (fun _ => "") aliceAlone).Reachable x ∧
    ⟨aliceText, 1⟩ ∈ x.delivered ∧ ⟨bobText, 1⟩ ∈ x.delivered ∧
    ∀ shown ∈ x.messages, shown.messageId ≠ some aliceText.id := by
  refine ⟨_, ⟨_, [.apply [⟨aliceText, 1⟩], .realtime ⟨bobText, 1⟩], rfl,
    .cons rfl (.cons rfl (.nil _))⟩, by simp [Merge.copies], by simp [Merge.copies], ?_⟩
  decide

end IamRust
