import IamRust.L0Core.Json
import IamRust.L3Service.System

/-!
# Partial updates on the wire

The three requests that change some fields of an object. A field that can be
cleared is an `Option<Option<_>>`: leave it, clear it, set it. The derived
`Serialize` writes the first two as `null`, and the derived `Deserialize` reads
`null` and a missing field as the first.

* `partial_updates_survive`: a request is read back exactly if it clears
  nothing.
* `lift_mute_lost`: the client lifts a mute, the server accepts the request
  and the member stays muted.
-/
namespace IamRust

open Core

/-- How the libraries write what has no JSON of its own: a time (chrono) and an identifier
(uuid). -/
structure Formats where
  dateTime : Leaf DateTime
  uuid : Leaf Uuid

/-- `#[serde(rename_all = "snake_case")]`.
mirrors crates/domain/src/conversation.rs:15-21 -/
def MemberRole.json : Leaf MemberRole where
  encode role := .string (match role with
    | .member => "member"
    | .administrator => "administrator"
    | .owner => "owner")
  decode
    | .string "member" => some .member
    | .string "administrator" => some .administrator
    | .string "owner" => some .owner
    | _ => none
  decode_encode role := by cases role <;> rfl
  encode_ne_null _ := nofun

section
variable (formats : Formats)

/-- mirrors crates/protocol/src/lib.rs:314-322 -/
def UpdateConversationSettingsRequest.json : Codec UpdateConversationSettingsRequest where
  encode r := .object [
    ("pinned", Leaf.bool.option.encode r.pinned),
    ("muted", Leaf.bool.option.encode r.muted),
    ("hidden", Leaf.bool.option.encode r.hidden),
    ("manually_unread", Leaf.bool.option.encode r.manuallyUnread),
    ("draft", Leaf.string.option.encode r.draft),
    ("label", Leaf.string.option.option.encode r.label)]
  decode j := do
    let fields ← j.fields?
    let pinned ← Json.field fields "pinned" Leaf.bool.option
    let muted ← Json.field fields "muted" Leaf.bool.option
    let hidden ← Json.field fields "hidden" Leaf.bool.option
    let manuallyUnread ← Json.field fields "manually_unread" Leaf.bool.option
    let draft ← Json.field fields "draft" Leaf.string.option
    let label ← Json.field fields "label" Leaf.string.option.option
    some ⟨pinned, muted, hidden, manuallyUnread, draft, label⟩

/-- mirrors crates/protocol/src/lib.rs:324-330 -/
def UpdateGroupRequest.json : Codec UpdateGroupRequest where
  encode r := .object [
    ("name", Leaf.string.option.encode r.name),
    ("avatar_url", Leaf.string.option.option.encode r.avatarUrl),
    ("avatar_attachment_id", formats.uuid.option.option.encode r.avatarAttachmentId)]
  decode j := do
    let fields ← j.fields?
    let name ← Json.field fields "name" Leaf.string.option
    let avatarUrl ← Json.field fields "avatar_url" Leaf.string.option.option
    let avatarAttachmentId ← Json.field fields "avatar_attachment_id" formats.uuid.option.option
    some ⟨name, avatarUrl, avatarAttachmentId⟩

/-- mirrors crates/protocol/src/lib.rs:337-342 -/
def UpdateGroupMemberRequest.json : Codec UpdateGroupMemberRequest where
  encode r := .object [
    ("nickname", Leaf.string.option.option.encode r.nickname),
    ("role", MemberRole.json.option.encode r.role),
    ("muted_until", formats.dateTime.option.option.encode r.mutedUntil)]
  decode j := do
    let fields ← j.fields?
    let nickname ← Json.field fields "nickname" Leaf.string.option.option
    let role ← Json.field fields "role" MemberRole.json.option
    let mutedUntil ← Json.field fields "muted_until" formats.dateTime.option.option
    some ⟨nickname, role, mutedUntil⟩

/-- What the client sends to mute a member or to lift the mute.
mirrors apps/desktop/src/api.rs:700-715 -/
def updateGroupMemberMute (mutedUntil : Option DateTime) : UpdateGroupMemberRequest where
  nickname := none
  role := none
  mutedUntil := some mutedUntil

/-! ## What arrives -/

/-- A field with two layers of `Option` arrives with one. -/
theorem UpdateConversationSettingsRequest.decode_encode (r : UpdateConversationSettingsRequest) :
    json.decode (json.encode r) = some { r with label := r.label.join.map some } := by
  simp [json, Json.fields?, Json.field, Leaf.decode_encode_option,
    Leaf.decode_encode_option_option]

theorem UpdateGroupRequest.decode_encode (r : UpdateGroupRequest) :
    (json formats).decode ((json formats).encode r) = some { r with
      avatarUrl := r.avatarUrl.join.map some
      avatarAttachmentId := r.avatarAttachmentId.join.map some } := by
  simp [json, Json.fields?, Json.field, Leaf.decode_encode_option,
    Leaf.decode_encode_option_option]

theorem UpdateGroupMemberRequest.decode_encode (r : UpdateGroupMemberRequest) :
    (json formats).decode ((json formats).encode r) = some { r with
      nickname := r.nickname.join.map some
      mutedUntil := r.mutedUntil.join.map some } := by
  simp [json, Json.fields?, Json.field, Leaf.decode_encode_option,
    Leaf.decode_encode_option_option]

end

/-- **A request survives exactly if it clears nothing.** A request to lift a mute arrives as one
that leaves it, which makes no difference only to a member who is not muted. -/
theorem partial_updates_survive (formats : Formats) :
    (∀ r, (UpdateGroupMemberRequest.json formats).decode
        ((UpdateGroupMemberRequest.json formats).encode r) = some r ↔
      r.nickname ≠ some none ∧ r.mutedUntil ≠ some none) ∧
    (∀ r, (UpdateGroupRequest.json formats).decode
        ((UpdateGroupRequest.json formats).encode r) = some r ↔
      r.avatarUrl ≠ some none ∧ r.avatarAttachmentId ≠ some none) ∧
    (∀ r, UpdateConversationSettingsRequest.json.decode
        (UpdateConversationSettingsRequest.json.encode r) = some r ↔ r.label ≠ some none) ∧
    ∀ r received, (UpdateGroupMemberRequest.json formats).decode
        ((UpdateGroupMemberRequest.json formats).encode r) = some received →
      ∀ member : ConversationMember,
        ((member.apply received).mutedUntil = (member.apply r).mutedUntil ↔
          (r.mutedUntil = some none → member.mutedUntil = none)) := by
  refine ⟨fun r => ?_, fun r => ?_, fun r => ?_, fun r received h member => ?_⟩
  · rw [UpdateGroupMemberRequest.decode_encode, Option.some.injEq, ← map_join_eq_iff,
      ← map_join_eq_iff]
    obtain ⟨nickname, role, mutedUntil⟩ := r
    simp
  · rw [UpdateGroupRequest.decode_encode, Option.some.injEq, ← map_join_eq_iff, ← map_join_eq_iff]
    obtain ⟨name, avatarUrl, avatarAttachmentId⟩ := r
    simp
  · rw [UpdateConversationSettingsRequest.decode_encode, Option.some.injEq, ← map_join_eq_iff]
    obtain ⟨pinned, muted, hidden, manuallyUnread, draft, label⟩ := r
    simp
  · rw [UpdateGroupMemberRequest.decode_encode, Option.some.injEq] at h
    subst h
    match hr : r.mutedUntil with
    | none => simp [ConversationMember.apply, hr]
    | some none => simp [ConversationMember.apply, hr]
    | some (some t) => simp [ConversationMember.apply, hr]

/-! ## The mute that stays -/

/-- Decimal digits behind a sign. -/
def signed (n : Int) : String :=
  String.ofList ((if n < 0 then '-' else '+') :: Nat.toDigits 10 n.natAbs)

theorem signed_injective : Function.Injective signed := by
  intro m n h
  obtain ⟨hsign, hdigits⟩ := List.cons.inj (String.ofList_injective h)
  have habs : m.natAbs = n.natAbs := by
    rw [← Nat.ofDigitChars_ten_toDigits (n := m.natAbs), hdigits, Nat.ofDigitChars_ten_toDigits]
  split at hsign <;> split at hsign
  · omega
  · cases hsign
  · cases hsign
  · omega

noncomputable def Formats.decimal : Formats where
  dateTime := .text signed signed_injective
  uuid := .text (fun u => signed u) fun _ _ h => Int.ofNat.inj (signed_injective h)

/-- Alice mutes Bob in the group until the fifth day. -/
def aliceMutesBob : List Op :=
  aliceAndBob ++ [.updateGroupMember 1 11 4 (updateGroupMemberMute (some (Duration.days 5))) 0]

/-- Alice's client lifts Bob's mute: the server accepts the request and he stays muted. -/
theorem lift_mute_lost : ∃ received w conversation w',
    (UpdateGroupMemberRequest.json Formats.decimal).decode
      ((UpdateGroupMemberRequest.json Formats.decimal).encode (updateGroupMemberMute none)) =
        some received ∧
    received ≠ updateGroupMemberMute none ∧
    (service Env.numbered).Reachable w ∧
    (updateGroupMember Env.numbered 1 11 4 received 0).Runs w conversation w' ∧
    (w'.conversations.get 11).bind (fun c => (c.members.get 4).map (·.mutedUntil)) =
      some (some (Duration.days 5)) := by
  obtain ⟨w, conversation, w', hw, hr, hp⟩ := reaches_runs Env.numbered aliceMutesBob
    (updateGroupMember Env.numbered 1 11 4 ⟨none, none, none⟩ 0)
    (fun _ _ w' => (w'.conversations.get 11).bind (fun c => (c.members.get 4).map (·.mutedUntil)) ==
      some (some (Duration.days 5)))
    (by decide +kernel)
  exact ⟨⟨none, none, none⟩, w, conversation, w', rfl, nofun, reachable_of_run hw, hr,
    by simpa using hp⟩

end IamRust
