import IamRust.L0Core.JsonText
import IamRust.L3Service.Signals

/-!
# The frames of events and call signals

What `serde_json` writes for them, and how long that is. A payload is a `Value`,
which keeps the keys of an object in order; the fields of a frame, an event and a
call signal stand as they are declared. How `chrono` prints a time is left open.

Beside the JSON of each type stands its length (`…Bytes`), as a sum over the texts,
identifiers, times and numbers in it; `size_event` and `size_call` are for whole
frames.
-/
namespace IamRust

open Core

/-- How times are printed. -/
structure Chrono where
  dateTime : DateTime → String
  date : NaiveDate → String

/-! ## Parts -/

variable (chrono : Chrono)

def jsonUuid (u : Uuid) : Json := .string (Uuid.toString u)

def jsonUuids (ids : List Uuid) : Json := .array (ids.map jsonUuid)

def jsonNat (n : Nat) : Json := .number n

def jsonTime (t : DateTime) : Json := .string (chrono.dateTime t)

def jsonDate (d : NaiveDate) : Json := .string (chrono.date d)

def jsonOption {α : Type} (f : α → Json) : Option α → Json
  | none => .null
  | some a => f a

/-- A text and its quotation marks. -/
def textBytes (s : String) : Nat := Json.escapedLen s + 2

def flagBytes (b : Bool) : Nat := if b then 4 else 5

/-- Decimal digits. -/
def natBytes (n : Nat) : Nat := (jsonNat n).size

def timeBytes (t : DateTime) : Nat := textBytes (chrono.dateTime t)

def dateBytes (d : NaiveDate) : Nat := textBytes (chrono.date d)

def uuidsBytes (ids : List Uuid) : Nat := 38 * ids.length + (ids.length - 1) + 2

def uuidBytes (_ : Uuid) : Nat := 38

/-- `null` for a missing value. -/
def optionBytes {α : Type} (f : α → Nat) (o : Option α) : Nat := (o.map f).getD 4

theorem plain_hexDigits (width n : Nat) : ∀ c ∈ Text.hexDigits width n, Json.plain c = true := by
  have hdigit : ∀ k < 16, Json.plain (Text.hexDigit k) = true := by decide
  induction width generalizing n with
  | zero => exact nofun
  | succ width ih =>
    intro c hc
    rcases List.mem_append.mp hc with hc | hc
    · exact ih _ c hc
    · have hmod : Text.hexDigit (n % 16) = Text.hexDigit n := by simp [Text.hexDigit]
      rw [List.mem_singleton.mp hc, ← hmod]
      exact hdigit _ (Nat.mod_lt _ (by decide))

theorem plain_uuid (u : Uuid) : (Uuid.toString u).toList.all Json.plain = true := by
  have hdigits := plain_hexDigits 32 u
  rw [Uuid.toString, String.toList_ofList]
  generalize Text.hexDigits 32 u = d at hdigits ⊢
  have htake : ∀ k n, ((d.drop k).take n).all Json.plain = true := fun k n =>
    List.all_eq_true.mpr fun c hc => hdigits c (List.mem_of_mem_drop (List.mem_of_mem_take hc))
  have hdash : ['-'].all Json.plain = true := by decide
  have hfirst := htake 0 8
  have hlast : (d.drop 20).all Json.plain = true :=
    List.all_eq_true.mpr fun c hc => hdigits c (List.mem_of_mem_drop hc)
  rw [List.drop_zero] at hfirst
  simp only [List.all_append, htake, hfirst, hlast, hdash, Bool.and_true]

theorem escapedLen_uuid (u : Uuid) : Json.escapedLen (Uuid.toString u) = 36 := by
  rw [Json.escapedLen_plain (plain_uuid u), Uuid.length_toString]

@[simp] theorem size_uuid (u : Uuid) : (jsonUuid u).size = 38 := by
  rw [jsonUuid, Json.size_string, escapedLen_uuid]

@[simp] theorem size_nat (n : Nat) : (jsonNat n).size = natBytes n := rfl

@[simp] theorem size_text (s : String) : (Json.string s).size = textBytes s := Json.size_string s

@[simp] theorem size_flag (b : Bool) : (Json.bool b).size = flagBytes b := Json.size_bool b

@[simp] theorem size_time (t : DateTime) : (jsonTime chrono t).size = timeBytes chrono t :=
  Json.size_string _

@[simp] theorem size_date (d : NaiveDate) : (jsonDate chrono d).size = dateBytes chrono d :=
  Json.size_string _

@[simp] theorem size_uuids (ids : List Uuid) : (jsonUuids ids).size = uuidsBytes ids := by
  have hsum : (ids.map (Json.size ∘ jsonUuid)).sum = 38 * ids.length := by
    induction ids with
    | nil => rfl
    | cons u ids ih =>
      rw [List.map_cons, List.sum_cons, ih, Function.comp, size_uuid, List.length_cons]
      omega
  rw [jsonUuids, Json.size_array, List.map_map, List.length_map, hsum, uuidsBytes]

theorem size_option {α : Type} {f : α → Json} {g : α → Nat} (h : ∀ a, (f a).size = g a)
    (o : Option α) : (jsonOption f o).size = optionBytes g o := by
  cases o with
  | none => exact Json.size_null
  | some a => exact h a

@[simp] theorem size_optionUuid (o : Option Uuid) :
    (jsonOption jsonUuid o).size = optionBytes uuidBytes o := size_option size_uuid o

@[simp] theorem size_optionText (o : Option String) :
    (jsonOption Json.string o).size = optionBytes textBytes o := size_option size_text o

@[simp] theorem size_optionNat (o : Option Nat) :
    (jsonOption jsonNat o).size = optionBytes natBytes o := size_option size_nat o

@[simp] theorem size_optionTime (o : Option DateTime) :
    (jsonOption (jsonTime chrono) o).size = optionBytes (timeBytes chrono) o :=
  size_option (size_time chrono) o

@[simp] theorem size_optionDate (o : Option NaiveDate) :
    (jsonOption (jsonDate chrono) o).size = optionBytes (dateBytes chrono) o :=
  size_option (size_date chrono) o

/-! ## Accounts -/

def Presence.name : Presence → String
  | .online => "online"
  | .away => "away"
  | .busy => "busy"
  | .invisible => "invisible"
  | .offline => "offline"

def ProfileVisibility.name : ProfileVisibility → String
  | .everyone => "everyone"
  | .friends => "friends"
  | .nobody => "nobody"

def FriendRequestStatus.name : FriendRequestStatus → String
  | .pending => "pending"
  | .accepted => "accepted"
  | .rejected => "rejected"
  | .cancelled => "cancelled"

/-- mirrors crates/domain/src/user.rs:49-65 -/
def UserProfile.json (p : UserProfile) : Json := .object
  [("avatar_attachment_id", jsonOption jsonUuid p.avatarAttachmentId),
    ("avatar_url", jsonOption .string p.avatarUrl),
    ("birthday", jsonOption (jsonDate chrono) p.birthday),
    ("gender", jsonOption .string p.gender),
    ("id", jsonUuid p.id),
    ("last_seen_at", jsonOption (jsonTime chrono) p.lastSeenAt),
    ("nickname", .string p.nickname),
    ("presence", .string p.presence.name),
    ("region", jsonOption .string p.region),
    ("signature", .string p.signature),
    ("username", .string p.username)]

def UserProfile.bytes (p : UserProfile) : Nat :=
  180 + optionBytes uuidBytes p.avatarAttachmentId + optionBytes textBytes p.avatarUrl +
    optionBytes (dateBytes chrono) p.birthday + optionBytes textBytes p.gender +
    optionBytes (timeBytes chrono) p.lastSeenAt + textBytes p.nickname +
    textBytes p.presence.name + optionBytes textBytes p.region + textBytes p.signature +
    textBytes p.username

@[simp] theorem size_profile (p : UserProfile) : (p.json chrono).size = p.bytes chrono := by
  simp [UserProfile.json, UserProfile.bytes, Json.escapedLen_plain, Json.plain]
  omega

/-- mirrors crates/domain/src/user.rs:28-34 -/
def ProfilePrivacySettings.json (s : ProfilePrivacySettings) : Json := .object
  [("birthday_visibility", .string s.birthdayVisibility.name),
    ("gender_visibility", .string s.genderVisibility.name),
    ("presence_visibility", .string s.presenceVisibility.name),
    ("read_receipts_enabled", .bool s.readReceiptsEnabled),
    ("region_visibility", .string s.regionVisibility.name)]

def ProfilePrivacySettings.bytes (s : ProfilePrivacySettings) : Nat :=
  114 + textBytes s.birthdayVisibility.name + textBytes s.genderVisibility.name +
    textBytes s.presenceVisibility.name + flagBytes s.readReceiptsEnabled +
    textBytes s.regionVisibility.name

@[simp] theorem size_privacy (s : ProfilePrivacySettings) : (s.json).size = s.bytes := by
  simp [ProfilePrivacySettings.json, ProfilePrivacySettings.bytes, Json.escapedLen_plain,
    Json.plain]
  omega

/-- mirrors crates/domain/src/friend.rs:16-24 -/
def FriendRequest.json (r : FriendRequest) : Json := .object
  [("created_at", jsonTime chrono r.createdAt),
    ("id", jsonUuid r.id),
    ("message", .string r.message),
    ("recipient_id", jsonUuid r.recipientId),
    ("sender_id", jsonUuid r.senderId),
    ("status", .string r.status.name),
    ("updated_at", jsonTime chrono r.updatedAt)]

def FriendRequest.bytes (r : FriendRequest) : Nat :=
  199 + timeBytes chrono r.createdAt + textBytes r.message + textBytes r.status.name +
    timeBytes chrono r.updatedAt

@[simp] theorem size_friendRequest (r : FriendRequest) : (r.json chrono).size = r.bytes chrono := by
  simp [FriendRequest.json, FriendRequest.bytes, Json.escapedLen_plain, Json.plain]
  omega

/-- mirrors crates/protocol/src/lib.rs:254-260 -/
def FriendSettings.json (s : FriendSettings) : Json := .object
  [("allow_files", .bool s.allowFiles),
    ("group", jsonOption .string s.group),
    ("remark", jsonOption .string s.remark),
    ("share_presence", .bool s.sharePresence),
    ("user_id", jsonUuid s.userId)]

def FriendSettings.bytes (s : FriendSettings) : Nat :=
  102 + flagBytes s.allowFiles + optionBytes textBytes s.group + optionBytes textBytes s.remark +
    flagBytes s.sharePresence

@[simp] theorem size_friendSettings (s : FriendSettings) : (s.json).size = s.bytes := by
  simp [FriendSettings.json, FriendSettings.bytes, Json.escapedLen_plain, Json.plain]
  omega

/-! ## Conversations -/

def MemberRole.name : MemberRole → String
  | .member => "member"
  | .administrator => "administrator"
  | .owner => "owner"

def GroupJoinRequestStatus.name : GroupJoinRequestStatus → String
  | .pending => "pending"
  | .accepted => "accepted"
  | .rejected => "rejected"

/-- mirrors crates/domain/src/conversation.rs:10-13 -/
def ConversationKind.json : ConversationKind → Json
  | .direct peerUserId => .object
      [("kind", .string "direct"), ("peer_user_id", jsonUuid peerUserId)]
  | .group groupId => .object [("group_id", jsonUuid groupId), ("kind", .string "group")]

def ConversationKind.bytes : ConversationKind → Nat
  | .direct _ => 71
  | .group _ => 66

@[simp] theorem size_kind (k : ConversationKind) : k.json.size = k.bytes := by
  cases k <;>
    simp [ConversationKind.json, ConversationKind.bytes, textBytes, Json.escapedLen_plain,
      Json.plain]

/-- mirrors crates/domain/src/conversation.rs:24-30 -/
def ConversationMember.json (m : ConversationMember) : Json := .object
  [("joined_at", jsonTime chrono m.joinedAt),
    ("muted_until", jsonOption (jsonTime chrono) m.mutedUntil),
    ("nickname", jsonOption .string m.nickname),
    ("role", .string m.role.name),
    ("user_id", jsonUuid m.userId)]

def ConversationMember.bytes (m : ConversationMember) : Nat :=
  98 + timeBytes chrono m.joinedAt + optionBytes (timeBytes chrono) m.mutedUntil +
    optionBytes textBytes m.nickname + textBytes m.role.name

@[simp] theorem size_member (m : ConversationMember) : (m.json chrono).size = m.bytes chrono := by
  simp [ConversationMember.json, ConversationMember.bytes, Json.escapedLen_plain, Json.plain]
  omega

/-- Under their ids. -/
def jsonMembers (members : Map UserId ConversationMember) : Json :=
  .object (members.entries.map fun e => (Uuid.toString e.1, e.2.json chrono))

def membersBytes (members : Map UserId ConversationMember) : Nat :=
  (members.values.map fun m => 39 + m.bytes chrono).sum + (members.values.length - 1) + 2

@[simp] theorem size_members (members : Map UserId ConversationMember) :
    (jsonMembers chrono members).size = membersBytes chrono members := by
  simp [jsonMembers, membersBytes, Map.values, Function.comp_def, escapedLen_uuid]

/-- mirrors crates/domain/src/conversation.rs:33-45 -/
def Conversation.json (c : Conversation) : Json := .object
  [("avatar_attachment_id", jsonOption jsonUuid c.avatarAttachmentId),
    ("avatar_url", jsonOption .string c.avatarUrl),
    ("created_at", jsonTime chrono c.createdAt),
    ("id", jsonUuid c.id),
    ("kind", c.kind.json),
    ("members", jsonMembers chrono c.members),
    ("muted", .bool c.muted),
    ("name", .string c.name),
    ("pinned", .bool c.pinned),
    ("updated_at", jsonTime chrono c.updatedAt)]

def Conversation.bytes (c : Conversation) : Nat :=
  157 + optionBytes uuidBytes c.avatarAttachmentId + optionBytes textBytes c.avatarUrl +
    timeBytes chrono c.createdAt + c.kind.bytes + membersBytes chrono c.members +
    flagBytes c.muted + textBytes c.name + flagBytes c.pinned + timeBytes chrono c.updatedAt

@[simp] theorem size_conversation (c : Conversation) : (c.json chrono).size = c.bytes chrono := by
  simp [Conversation.json, Conversation.bytes, Json.escapedLen_plain, Json.plain]
  omega

/-- mirrors crates/protocol/src/lib.rs:289-298 -/
def ConversationSettings.json (s : ConversationSettings) : Json := .object
  [("conversation_id", jsonUuid s.conversationId),
    ("draft", .string s.draft),
    ("hidden", .bool s.hidden),
    ("label", jsonOption .string s.label),
    ("last_read_sequence", jsonNat s.lastReadSequence),
    ("manually_unread", .bool s.manuallyUnread),
    ("muted", .bool s.muted),
    ("pinned", .bool s.pinned)]

def ConversationSettings.bytes (s : ConversationSettings) : Nat :=
  146 + textBytes s.draft + flagBytes s.hidden + optionBytes textBytes s.label +
    natBytes s.lastReadSequence + flagBytes s.manuallyUnread + flagBytes s.muted +
    flagBytes s.pinned

@[simp] theorem size_settings (s : ConversationSettings) : (s.json).size = s.bytes := by
  simp [ConversationSettings.json, ConversationSettings.bytes, Json.escapedLen_plain, Json.plain]
  omega

/-- mirrors crates/protocol/src/lib.rs:360-368 -/
def GroupAnnouncement.json (a : GroupAnnouncement) : Json := .object
  [("author_id", jsonUuid a.authorId),
    ("content", .string a.content),
    ("conversation_id", jsonUuid a.conversationId),
    ("created_at", jsonTime chrono a.createdAt),
    ("id", jsonUuid a.id),
    ("read_by", jsonUuids a.readBy),
    ("updated_at", jsonTime chrono a.updatedAt)]

def GroupAnnouncement.bytes (a : GroupAnnouncement) : Nat :=
  203 + textBytes a.content + timeBytes chrono a.createdAt + uuidsBytes a.readBy +
    timeBytes chrono a.updatedAt

@[simp] theorem size_announcement (a : GroupAnnouncement) :
    (a.json chrono).size = a.bytes chrono := by
  simp [GroupAnnouncement.json, GroupAnnouncement.bytes, Json.escapedLen_plain, Json.plain]
  omega

/-- mirrors crates/protocol/src/lib.rs:392-401 -/
def GroupJoinRequest.json (r : GroupJoinRequest) : Json := .object
  [("applicant_id", jsonUuid r.applicantId),
    ("conversation_id", jsonUuid r.conversationId),
    ("created_at", jsonTime chrono r.createdAt),
    ("id", jsonUuid r.id),
    ("message", .string r.message),
    ("reviewed_by", jsonOption jsonUuid r.reviewedBy),
    ("status", .string r.status.name),
    ("updated_at", jsonTime chrono r.updatedAt)]

def GroupJoinRequest.bytes (r : GroupJoinRequest) : Nat :=
  220 + timeBytes chrono r.createdAt + textBytes r.message + optionBytes uuidBytes r.reviewedBy +
    textBytes r.status.name + timeBytes chrono r.updatedAt

@[simp] theorem size_joinRequest (r : GroupJoinRequest) :
    (r.json chrono).size = r.bytes chrono := by
  simp [GroupJoinRequest.json, GroupJoinRequest.bytes, Json.escapedLen_plain, Json.plain]
  omega

/-- mirrors crates/protocol/src/lib.rs:414-418 -/
def GroupPollOption.json (o : GroupPollOption) : Json := .object
  [("id", jsonUuid o.id),
    ("label", .string o.label),
    ("voter_ids", jsonUuids o.voterIds)]

def GroupPollOption.bytes (o : GroupPollOption) : Nat :=
  67 + textBytes o.label + uuidsBytes o.voterIds

@[simp] theorem size_pollOption (o : GroupPollOption) : (o.json).size = o.bytes := by
  simp [GroupPollOption.json, GroupPollOption.bytes, Json.escapedLen_plain, Json.plain]
  omega

def listBytes {α : Type} (f : α → Nat) (l : List α) : Nat := (l.map f).sum + (l.length - 1) + 2

theorem size_list {α : Type} {f : α → Json} {g : α → Nat} (h : ∀ a, (f a).size = g a)
    (l : List α) : (Json.array (l.map f)).size = listBytes g l := by
  have hmap : Json.size ∘ f = g := funext h
  rw [Json.size_array, List.map_map, List.length_map, hmap, listBytes]

@[simp] theorem size_pollOptions (l : List GroupPollOption) :
    (Json.array (l.map GroupPollOption.json)).size = listBytes GroupPollOption.bytes l :=
  size_list size_pollOption l

/-- mirrors crates/protocol/src/lib.rs:421-430 -/
def GroupPoll.json (p : GroupPoll) : Json := .object
  [("closes_at", jsonOption (jsonTime chrono) p.closesAt),
    ("conversation_id", jsonUuid p.conversationId),
    ("created_at", jsonTime chrono p.createdAt),
    ("creator_id", jsonUuid p.creatorId),
    ("id", jsonUuid p.id),
    ("multiple_choice", .bool p.multipleChoice),
    ("options", .array (p.options.map GroupPollOption.json)),
    ("question", .string p.question)]

def GroupPoll.bytes (p : GroupPoll) : Nat :=
  223 + optionBytes (timeBytes chrono) p.closesAt + timeBytes chrono p.createdAt +
    flagBytes p.multipleChoice + listBytes GroupPollOption.bytes p.options +
    textBytes p.question

@[simp] theorem size_poll (p : GroupPoll) : (p.json chrono).size = p.bytes chrono := by
  simp [GroupPoll.json, GroupPoll.bytes, Json.escapedLen_plain, Json.plain]
  omega

/-! ## Messages -/

def AttachmentKind.name : AttachmentKind → String
  | .image => "image"
  | .file => "file"
  | .audio => "audio"
  | .video => "video"

def MessageStatus.name : MessageStatus → String
  | .pending => "pending"
  | .sent => "sent"
  | .delivered => "delivered"
  | .read => "read"
  | .failed => "failed"
  | .recalled => "recalled"

/-- mirrors crates/domain/src/message.rs:16-25 -/
def Attachment.json (a : Attachment) : Json := .object
  [("byte_size", jsonNat a.byteSize),
    ("file_name", .string a.fileName),
    ("id", jsonUuid a.id),
    ("kind", .string a.kind.name),
    ("mime_type", .string a.mimeType),
    ("sha256", jsonOption .string a.sha256),
    ("storage_key", .string a.storageKey),
    ("thumbnail_key", jsonOption .string a.thumbnailKey)]

def Attachment.bytes (a : Attachment) : Nat :=
  134 + natBytes a.byteSize + textBytes a.fileName + textBytes a.kind.name +
    textBytes a.mimeType + optionBytes textBytes a.sha256 + textBytes a.storageKey +
    optionBytes textBytes a.thumbnailKey

@[simp] theorem size_attachment (a : Attachment) : (a.json).size = a.bytes := by
  simp [Attachment.json, Attachment.bytes, Json.escapedLen_plain, Json.plain]
  omega

/-- A content and its tag. -/
def contentJson (type : String) (data : List (String × Json)) : Json :=
  .object [("data", .object data), ("type", .string type)]

mutual

/-- mirrors crates/domain/src/message.rs:37-62 -/
def MessageContent.json : MessageContent → Json
  | .text t => contentJson "text" [("text", .string t)]
  | .image attachment => contentJson "image" [("attachment", attachment.json)]
  | .file attachment => contentJson "file" [("attachment", attachment.json)]
  | .audio attachment durationMs => contentJson "audio"
      [("attachment", attachment.json), ("duration_ms", jsonNat durationMs)]
  | .sticker attachment name => contentJson "sticker"
      [("attachment", attachment.json), ("name", .string name)]
  | .forwardBundle title messages => contentJson "forward_bundle"
      [("messages", .array (jsonForwarded messages)), ("title", .string title)]
  | .system t => contentJson "system" [("text", .string t)]

def jsonForwarded : List ForwardedMessage → List Json
  | [] => []
  | m :: messages =>
    .object [("content", m.content.json), ("created_at", jsonTime chrono m.createdAt),
      ("sender_id", jsonUuid m.senderId), ("sender_name", .string m.senderName)] ::
      jsonForwarded messages

end

mutual

def MessageContent.bytes : MessageContent → Nat
  | .text t => 32 + textBytes t
  | .image attachment => 39 + attachment.bytes
  | .file attachment => 38 + attachment.bytes
  | .audio attachment durationMs => 54 + attachment.bytes + natBytes durationMs
  | .sticker attachment name => 49 + attachment.bytes + textBytes name
  | .forwardBundle title messages =>
    57 + forwardedBytes messages + (messages.length - 1) + textBytes title
  | .system t => 34 + textBytes t

/-- Without the commas. -/
def forwardedBytes : List ForwardedMessage → Nat
  | [] => 0
  | m :: messages => 92 + m.content.bytes + timeBytes chrono m.createdAt +
      textBytes m.senderName + forwardedBytes messages

end

theorem length_jsonForwarded (messages : List ForwardedMessage) :
    (jsonForwarded chrono messages).length = messages.length := by
  induction messages with
  | nil => rfl
  | cons m messages ih => rw [jsonForwarded, List.length_cons, ih, List.length_cons]

mutual

@[simp] theorem size_content :
    ∀ content : MessageContent, (content.json chrono).size = content.bytes chrono
  | .text text => by
    simp [MessageContent.json, MessageContent.bytes, contentJson, textBytes, Json.escapedLen_plain,
      Json.plain]
    omega
  | .image attachment | .file attachment => by
    simp [MessageContent.json, MessageContent.bytes, contentJson, textBytes, Json.escapedLen_plain,
      Json.plain]
    omega
  | .audio attachment durationMs => by
    simp [MessageContent.json, MessageContent.bytes, contentJson, textBytes, Json.escapedLen_plain,
      Json.plain]
    omega
  | .sticker attachment name => by
    simp [MessageContent.json, MessageContent.bytes, contentJson, textBytes, Json.escapedLen_plain,
      Json.plain]
    omega
  | .forwardBundle title messages => by
    have hmessages := size_forwarded messages
    simp [MessageContent.json, MessageContent.bytes, contentJson, textBytes, Json.escapedLen_plain,
      Json.plain, Json.size_array, length_jsonForwarded, hmessages]
    omega
  | .system text => by
    simp [MessageContent.json, MessageContent.bytes, contentJson, textBytes, Json.escapedLen_plain,
      Json.plain]
    omega

theorem size_forwarded : ∀ messages : List ForwardedMessage,
    ((jsonForwarded chrono messages).map Json.size).sum = forwardedBytes chrono messages
  | [] => rfl
  | m :: messages => by
    have hcontent := size_content m.content
    have hmessages := size_forwarded messages
    simp [jsonForwarded, forwardedBytes, Json.escapedLen_plain, Json.plain, hcontent, hmessages]
    omega

end

/-- mirrors crates/domain/src/message.rs:121-137 -/
def Message.json (m : Message) : Json := .object
  [("client_message_id", jsonUuid m.clientMessageId),
    ("content", m.content.json chrono),
    ("conversation_id", jsonUuid m.conversationId),
    ("created_at", jsonTime chrono m.createdAt),
    ("edited_at", jsonOption (jsonTime chrono) m.editedAt),
    ("id", jsonUuid m.id),
    ("mention_all", .bool m.mentionAll),
    ("mentions", jsonUuids m.mentions),
    ("reply_to", jsonOption jsonUuid m.replyTo),
    ("sender_id", jsonUuid m.senderId),
    ("sequence", jsonOption jsonNat m.sequence),
    ("server_created_at", jsonOption (jsonTime chrono) m.serverCreatedAt),
    ("status", .string m.status.name)]

def Message.bytes (m : Message) : Nat :=
  332 + m.content.bytes chrono + timeBytes chrono m.createdAt +
    optionBytes (timeBytes chrono) m.editedAt + flagBytes m.mentionAll + uuidsBytes m.mentions +
    optionBytes uuidBytes m.replyTo + optionBytes natBytes m.sequence +
    optionBytes (timeBytes chrono) m.serverCreatedAt + textBytes m.status.name

@[simp] theorem size_message (m : Message) : (m.json chrono).size = m.bytes chrono := by
  simp [Message.json, Message.bytes, Json.escapedLen_plain, Json.plain]
  omega

/-- mirrors crates/protocol/src/lib.rs:552-555 -/
def MessageReaction.json (r : MessageReaction) : Json := .object
  [("emoji", .string r.emoji),
    ("user_ids", jsonUuids r.userIds)]

def MessageReaction.bytes (r : MessageReaction) : Nat :=
  22 + textBytes r.emoji + uuidsBytes r.userIds

@[simp] theorem size_reaction (r : MessageReaction) : (r.json).size = r.bytes := by
  simp [MessageReaction.json, MessageReaction.bytes, Json.escapedLen_plain, Json.plain]
  omega

@[simp] theorem size_reactions (l : List MessageReaction) :
    (Json.array (l.map MessageReaction.json)).size = listBytes MessageReaction.bytes l :=
  size_list size_reaction l

/-! ## Events -/

def EventKind.name : EventKind → String
  | .messageCreated => "message_created"
  | .messageUpdated => "message_updated"
  | .conversationUpdated => "conversation_updated"
  | .friendshipUpdated => "friendship_updated"
  | .groupMembershipUpdated => "group_membership_updated"
  | .readPositionUpdated => "read_position_updated"
  | .draftUpdated => "draft_updated"
  | .presenceUpdated => "presence_updated"

/-- The payloads, as `append_event` is given them. -/
def EventPayload.json : EventPayload → Json
  | .profile p => .object [("profile", p.json chrono)]
  | .profileDeleted p => .object [("deleted", .bool true), ("profile", p.json chrono)]
  | .privacy settings => .object [("privacy", settings.json)]
  | .friendRequest request => .object [("friend_request", request.json chrono)]
  | .friendSettings settings => .object [("friend_settings", settings.json)]
  | .removedFriendIds ids => .object [("removed_friend_ids", jsonUuids ids)]
  | .blockedBy actor target => .object
      [("blocked_by", jsonUuid actor), ("target_id", jsonUuid target)]
  | .unblockedUserId target => .object [("unblocked_user_id", jsonUuid target)]
  | .conversation c => .object [("conversation", c.json chrono)]
  | .conversationAdded c addedMemberIds => .object
      [("added_member_ids", jsonUuids addedMemberIds), ("conversation", c.json chrono)]
  | .conversationMember c updatedMemberId => .object
      [("conversation", c.json chrono), ("updated_member_id", jsonUuid updatedMemberId)]
  | .leftUser conversationId userId => .object
      [("conversation_id", jsonUuid conversationId), ("left_user_id", jsonUuid userId)]
  | .disbanded conversationId => .object
      [("conversation_id", jsonUuid conversationId), ("disbanded", .bool true)]
  | .removedMember conversationId userId => .object
      [("conversation_id", jsonUuid conversationId), ("removed_member_id", jsonUuid userId)]
  | .groupMuted conversationId muted => .object
      [("conversation_id", jsonUuid conversationId), ("muted", .bool muted)]
  | .groupAnnouncement announcement => .object [("group_announcement", announcement.json chrono)]
  | .groupJoinRequest request => .object [("group_join_request", request.json chrono)]
  | .groupPoll poll => .object [("group_poll", poll.json chrono)]
  | .conversationSettings settings => .object [("conversation_settings", settings.json)]
  | .allRead => .object [("all_read", .bool true)]
  | .message m => .object [("message", m.json chrono)]
  | .messageForwarded m => .object [("forwarded", .bool true), ("message", m.json chrono)]
  | .messageDelivered messageId deliveredTo => .object
      [("delivered_to", jsonUuid deliveredTo), ("message_id", jsonUuid messageId)]
  | .messageReactions messageId reactions => .object
      [("message_id", jsonUuid messageId),
        ("reactions", .array (reactions.map MessageReaction.json))]
  | .readPosition userId conversationId throughSequence => .object
      [("conversation_id", jsonUuid conversationId),
        ("through_sequence", jsonNat throughSequence),
        ("user_id", jsonUuid userId)]

def EventPayload.bytes : EventPayload → Nat
  | .profile p => 12 + p.bytes chrono
  | .profileDeleted p => 27 + p.bytes chrono
  | .privacy settings => 12 + settings.bytes
  | .friendRequest request => 19 + request.bytes chrono
  | .friendSettings settings => 20 + settings.bytes
  | .removedFriendIds ids => 23 + uuidsBytes ids
  | .blockedBy _ _ => 104
  | .unblockedUserId _ => 60
  | .conversation c => 17 + c.bytes chrono
  | .conversationAdded c addedMemberIds => 37 + uuidsBytes addedMemberIds + c.bytes chrono
  | .conversationMember c _ => 76 + c.bytes chrono
  | .leftUser _ _ => 112
  | .disbanded _ => 75
  | .removedMember _ _ => 117
  | .groupMuted _ muted => 67 + flagBytes muted
  | .groupAnnouncement announcement => 23 + announcement.bytes chrono
  | .groupJoinRequest request => 23 + request.bytes chrono
  | .groupPoll poll => 15 + poll.bytes chrono
  | .conversationSettings settings => 26 + settings.bytes
  | .allRead => 17
  | .message m => 12 + m.bytes chrono
  | .messageForwarded m => 29 + m.bytes chrono
  | .messageDelivered _ _ => 107
  | .messageReactions _ reactions => 66 + listBytes MessageReaction.bytes reactions
  | .readPosition _ _ throughSequence => 127 + natBytes throughSequence

@[simp] theorem size_payload (payload : EventPayload) :
    (payload.json chrono).size = payload.bytes chrono := by
  cases payload <;>
    simp [EventPayload.json, EventPayload.bytes, flagBytes, Json.escapedLen_plain, Json.plain] <;>
    omega

/-- mirrors crates/domain/src/sync.rs:24-30 -/
def SyncEvent.json (e : SyncEvent) : Json := .object
  [("id", jsonUuid e.id),
    ("cursor", jsonNat e.cursor),
    ("kind", .string e.kind.name),
    ("payload", e.payload.json chrono),
    ("created_at", jsonTime chrono e.createdAt)]

def SyncEvent.bytes (e : SyncEvent) : Nat :=
  88 + natBytes e.cursor + textBytes e.kind.name + e.payload.bytes chrono +
    timeBytes chrono e.createdAt

@[simp] theorem size_syncEvent (e : SyncEvent) : (e.json chrono).size = e.bytes chrono := by
  simp [SyncEvent.json, SyncEvent.bytes, Json.escapedLen_plain, Json.plain]
  omega

/-- The frame of an event.
mirrors crates/protocol/src/lib.rs:689-706 -/
def eventFrame (e : SyncEvent) : String :=
  Json.write (.object [("type", .string "event"), ("event", e.json chrono)])

theorem size_event (e : SyncEvent) : Text.byteLen (eventFrame chrono e) = 25 + e.bytes chrono := by
  change Json.size _ = _
  simp [textBytes, Json.escapedLen_plain, Json.plain]
  omega

/-! ## Call signals -/

/-- mirrors crates/protocol/src/lib.rs:623-645 -/
def CallSignal.json : CallSignal → Json
  | .invite video => .object [("kind", .string "invite"), ("video", .bool video)]
  | .accept => .object [("kind", .string "accept")]
  | .offer sdp => .object [("kind", .string "offer"), ("sdp", .string sdp)]
  | .answer sdp => .object [("kind", .string "answer"), ("sdp", .string sdp)]
  | .iceCandidate candidate sdpMid sdpMlineIndex => .object
      [("kind", .string "ice_candidate"),
        ("candidate", .string candidate),
        ("sdp_mid", jsonOption .string sdpMid),
        ("sdp_mline_index", jsonOption jsonNat sdpMlineIndex)]
  | .participants userIds => .object
      [("kind", .string "participants"), ("user_ids", jsonUuids userIds)]
  | .reject => .object [("kind", .string "reject")]
  | .busy => .object [("kind", .string "busy")]
  | .hangup => .object [("kind", .string "hangup")]

def CallSignal.bytes : CallSignal → Nat
  | .invite video => 26 + flagBytes video
  | .accept => 17
  | .offer sdp => 23 + textBytes sdp
  | .answer sdp => 24 + textBytes sdp
  | .iceCandidate candidate sdpMid sdpMlineIndex =>
    67 + textBytes candidate + optionBytes textBytes sdpMid + optionBytes natBytes sdpMlineIndex
  | .participants userIds => 35 + uuidsBytes userIds
  | .reject => 17
  | .busy => 15
  | .hangup => 17

@[simp] theorem size_signal (signal : CallSignal) : signal.json.size = signal.bytes := by
  cases signal <;>
    simp [CallSignal.json, CallSignal.bytes, textBytes, Json.escapedLen_plain, Json.plain] <;>
    omega

/-- The frame of a call signal.
mirrors crates/protocol/src/lib.rs:712-717 -/
def callFrame (d : CallSignalDelivery) : String :=
  Json.write (.object [("type", .string "call_signal"),
    ("conversation_id", jsonUuid d.conversationId), ("call_id", jsonUuid d.callId),
    ("from_user_id", jsonUuid d.fromUserId), ("signal", d.signal.json)])

theorem size_call (d : CallSignalDelivery) :
    Text.byteLen (callFrame d) = 192 + d.signal.bytes := by
  change Json.size _ = _
  simp [textBytes, Json.escapedLen_plain, Json.plain]
  omega

end IamRust
