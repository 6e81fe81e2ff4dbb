import IamRust.L3Service.System
import IamRust.L5Concurrency.FrameJson

/-!
# How large a frame the client takes

A client's connection takes messages of up to 256 KiB, and fails at a larger one.
The limits of what the service accepts are set elsewhere: characters of a text,
messages of a bundle, bytes of a session description.

* `frames_fit_iff`: which events and call signals are written in a frame that
  fits.
* `bundle_too_large`: texts within their limit make a bundle that does not.
* `sdp_too_large`: an offer that is accepted and does not.
-/
namespace IamRust

open Core

/-- mirrors apps/desktop/src/realtime.rs:22 -/
def maxWebsocketMessageBytes : Nat := 256 * 1024

/-- mirrors apps/desktop/src/realtime.rs:193-195 -/
def FrameFits (frame : String) : Prop := Text.byteLen frame ≤ maxWebsocketMessageBytes

/-! ## Which frames fit -/

/-- The texts, identifiers, times and numbers of the event, with the names of the fields, leave
room for what stands around it. -/
def SyncEvent.Light (chrono : Chrono) (e : SyncEvent) : Prop :=
  natBytes e.cursor + textBytes e.kind.name + e.payload.bytes chrono +
    timeBytes chrono e.createdAt ≤ 262031

/-- The same of a call signal. -/
def CallSignal.Light : CallSignal → Prop
  | .offer sdp => Json.escapedLen sdp ≤ 261927
  | .answer sdp => Json.escapedLen sdp ≤ 261926
  | .iceCandidate candidate sdpMid sdpMlineIndex =>
    Json.escapedLen candidate + optionBytes textBytes sdpMid +
      optionBytes natBytes sdpMlineIndex ≤ 261883
  | .participants userIds => userIds.length ≤ 6715
  | _ => True

theorem event_fits_iff (chrono : Chrono) (e : SyncEvent) :
    FrameFits (eventFrame chrono e) ↔ e.Light chrono := by
  rw [FrameFits, size_event, SyncEvent.Light, SyncEvent.bytes, maxWebsocketMessageBytes]
  omega

theorem call_fits_iff (d : CallSignalDelivery) : FrameFits (callFrame d) ↔ d.signal.Light := by
  rw [FrameFits, size_call, maxWebsocketMessageBytes]
  cases d.signal with
  | invite video =>
    have hvideo : flagBytes video ≤ 5 := by unfold flagBytes; split <;> omega
    simp only [CallSignal.bytes, CallSignal.Light, iff_true]
    omega
  | participants userIds =>
    simp only [CallSignal.bytes, CallSignal.Light, uuidsBytes]
    omega
  | _ =>
    simp only [CallSignal.bytes, CallSignal.Light, textBytes, iff_true]
    omega

/-- Only an `Accept` is answered with a roster: those in the room, and the actor. -/
theorem enterCallRoom_roster {actor : UserId} {key : ConversationId × Uuid}
    {target : Option UserId} {signal : CallSignal} {now : DateTime} {rooms rooms' : CallRooms}
    {roster : Option (List UserId)}
    (h : enterCallRoom actor key target signal now rooms = .ok (roster, rooms')) :
    (signal = .accept ∧ ∃ room, rooms.get key = some room ∧
      roster = some ((insert actor room.participants).sort (· ≤ ·))) ∨
    (signal ≠ .accept ∧ roster = none) := by
  unfold enterCallRoom at h
  cases signal with
  | accept =>
    dsimp only at h
    cases hroom : rooms.get key with
    | none => rw [hroom] at h; cases h
    | some room =>
      rw [hroom] at h
      cases h
      exact .inl ⟨rfl, room, rfl, rfl⟩
  | _ =>
    dsimp only at h
    repeat' split at h
    all_goals cases h
    all_goals exact .inr ⟨nofun, rfl⟩

section
variable {s : Store} {actor : UserId} {c : ConversationId} {callId : Uuid} {target : Option UserId}
  {signal : CallSignal} {now : DateTime} {rooms rooms' : CallRooms}
  {deliveries : List (List UserId × CallSignalDelivery)}

theorem publishCallSignal_deliveries
    (h : publishCallSignal s actor c callId target signal now rooms = (.ok deliveries, rooms')) :
    ∃ recipients roster, deliveries = callDeliveries recipients actor c callId signal roster ∧
      ((signal = .accept ∧ ∃ room, rooms.get (c, callId) = some room ∧
        roster = some ((insert actor room.participants).sort (· ≤ ·))) ∨
      (signal ≠ .accept ∧ roster = none)) := by
  unfold publishCallSignal updateCallRoom at h
  split at h
  · cases h
  · next recipients _ =>
    dsimp only at h
    split at h
    · cases h
    · next roster rooms'' hupdate =>
      cases h
      split at hupdate
      · cases hupdate
      · next henter =>
        cases hupdate
        refine ⟨recipients, roster, rfl, ?_⟩
        rcases enterCallRoom_roster henter with ⟨haccept, room, hroom, hroster⟩ | hother
        · exact .inl ⟨haccept, room, Map.get_of_retain hroom, hroster⟩
        · exact .inr hother

/-- The frames an accepted signal is sent in. -/
theorem signal_fits_iff
    (h : publishCallSignal s actor c callId target signal now rooms = (.ok deliveries, rooms')) :
    (∀ d ∈ deliveries, FrameFits (callFrame d.2)) ↔ signal.Light ∧
      (signal = .accept → ∀ room, rooms.get (c, callId) = some room →
        (insert actor room.participants).card ≤ 6715) := by
  obtain ⟨recipients, roster, rfl, ⟨rfl, room, hroom, rfl⟩ | ⟨hother, rfl⟩⟩ :=
    publishCallSignal_deliveries h
  · simp [callDeliveries, call_fits_iff, CallSignal.Light, hroom]
  · simp [callDeliveries, call_fits_iff, hother]

end

/-- **Which frames fit.** Those of light events; and those an accepted signal is sent in, if the
signal is light and the roster of the call is not too long. -/
theorem frames_fit_iff (chrono : Chrono) :
    (∀ e : SyncEvent, FrameFits (eventFrame chrono e) ↔ e.Light chrono) ∧
    ∀ {s actor c callId target signal now rooms rooms' deliveries},
      publishCallSignal s actor c callId target signal now rooms = (.ok deliveries, rooms') →
      ((∀ d ∈ deliveries, FrameFits (callFrame d.2)) ↔ signal.Light ∧
        (signal = .accept → ∀ room, rooms.get (c, callId) = some room →
          (insert actor room.participants).card ≤ 6715)) :=
  ⟨event_fits_iff chrono, signal_fits_iff⟩

/-! ## Frames that do not -/

/-- The bytes of a text message as it is written. -/
def MessageContent.textBytes : MessageContent → Nat
  | .text t => Json.escapedLen t
  | _ => 0

theorem textBytes_le_forwardedBytes (chrono : Chrono) (messages : List ForwardedMessage) :
    (messages.map fun m => m.content.textBytes).sum ≤ forwardedBytes chrono messages := by
  induction messages with
  | nil => exact Nat.le_refl 0
  | cons m messages ih =>
    have hm : m.content.textBytes ≤ m.content.bytes chrono := by
      cases m.content with
      | text t =>
        simp only [MessageContent.textBytes, MessageContent.bytes, IamRust.textBytes]
        omega
      | _ => exact Nat.zero_le _
    rw [List.map_cons, List.sum_cons, forwardedBytes]
    omega

/-- The texts of a bundle together, each within its own limit, can be too much. -/
theorem bundle_too_large (chrono : Chrono) {e : SyncEvent} {m : Message} {title : String}
    {messages : List ForwardedMessage}
    (he : e.payload = .message m ∨ e.payload = .messageForwarded m)
    (hm : m.content = .forwardBundle title messages)
    (hlarge : maxWebsocketMessageBytes ≤ (messages.map fun m => m.content.textBytes).sum) :
    ¬ FrameFits (eventFrame chrono e) := by
  have htexts := textBytes_le_forwardedBytes chrono messages
  have hpayload : m.content.bytes chrono ≤ e.payload.bytes chrono := by
    rcases he with he | he <;> rw [he, EventPayload.bytes, Message.bytes] <;> omega
  rw [hm, MessageContent.bytes] at hpayload
  rw [event_fits_iff, SyncEvent.Light]
  unfold maxWebsocketMessageBytes at hlarge
  omega

/-- Alice is in a call with the id 1, in the conversation with Bob. -/
def aliceCalling : CallRooms := Map.empty.insert (9, 1) ⟨{1}, Duration.minutes callRoomTtlMinutes⟩

/-- So much that the frame it comes in is as large as the server takes. -/
def longSdp : String := String.ofList (List.replicate 261981 'a')

theorem escapedLen_longSdp : Json.escapedLen longSdp = 261981 :=
  Json.escapedLen_replicate _ (by decide)

theorem longSdp_accepted : (CallSignal.offer longSdp).oversized = false := by
  have hlen : Text.byteLen longSdp = 261981 := Json.byteLen_replicate _ (by decide)
  rw [CallSignal.oversized, hlen]
  exact decide_eq_false (by omega)

section
variable {s : Store} {conversation : Conversation}

theorem invite_accepted (hc : s.conversations.get 9 = some conversation)
    (hsend : conversation.canSend 1 0 = true) :
    (publishCallSignal s 1 9 1 none (.invite false) 0 .empty).2 = aliceCalling := by
  have hrecipients : callRecipients s 1 9 1 none (.invite false) 0 =
      .ok (conversation.members.keys.filter (· ≠ 1)) := by
    simp [callRecipients, CallSignal.oversized, CallSignal.isParticipants, hc, hsend]
  have hrooms : (Map.empty : CallRooms).retain (fun _ room => decide (room.expiresAt > 0)) =
      .empty := Map.ext fun k => by simp
  unfold publishCallSignal
  rw [hrecipients]
  simp only [updateCallRoom, hrooms, enterCallRoom]
  rfl

theorem offer_accepted {sdp : String} (hc : s.conversations.get 9 = some conversation)
    (hsend : conversation.canSend 1 0 = true)
    (hsdp : (CallSignal.offer sdp).oversized = false) :
    ∃ rooms, publishCallSignal s 1 9 1 none (.offer sdp) 0 aliceCalling =
      (.ok [(conversation.members.keys.filter (· ≠ 1), ⟨9, 1, 1, .offer sdp⟩)], rooms) := by
  have hrecipients : callRecipients s 1 9 1 none (.offer sdp) 0 =
      .ok (conversation.members.keys.filter (· ≠ 1)) := by
    simp [callRecipients, hsdp, CallSignal.isParticipants, hc, hsend]
  have hrooms : (aliceCalling.retain fun _ room => decide (room.expiresAt > 0)).get (9, 1) =
      some ⟨{1}, Duration.minutes callRoomTtlMinutes⟩ := by
    have hlater : Duration.minutes callRoomTtlMinutes > 0 := by decide
    rw [Map.get_retain, aliceCalling, Map.get_insert_self, Option.filter, decide_eq_true hlater,
      if_pos rfl]
  unfold publishCallSignal
  rw [hrecipients]
  simp [updateCallRoom, enterCallRoom, hrooms, callDeliveries]

end

/-- Alice invites Bob, and sends an offer that is accepted: the frame Bob is sent is too large. -/
theorem sdp_too_large : ∃ w, (service Env.numbered).Reachable w ∧
    (publishCallSignal w.toStore 1 9 1 none (.invite false) 0 .empty).2 = aliceCalling ∧
    ∃ deliveries rooms, publishCallSignal w.toStore 1 9 1 none (.offer longSdp) 0 aliceCalling =
      (.ok deliveries, rooms) ∧ ∃ d ∈ deliveries, ¬ FrameFits (callFrame d.2) := by
  obtain ⟨w, hw, hp⟩ := reaches Env.numbered aliceAndBob (fun w =>
    (w.conversations.get 9).any (·.canSend 1 0)) (by decide +kernel)
  obtain ⟨conversation, hc, hsend⟩ := (Option.any_eq_true ..).mp hp
  obtain ⟨rooms, h⟩ := offer_accepted hc hsend longSdp_accepted
  refine ⟨w, reachable_of_run hw, invite_accepted hc hsend, _, rooms, h, _,
    List.mem_singleton_self _, ?_⟩
  rw [call_fits_iff]
  change ¬ Json.escapedLen longSdp ≤ 261927
  rw [escapedLen_longSdp]
  omega

end IamRust
