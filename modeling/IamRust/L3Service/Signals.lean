import IamRust.L3Service.Timeline
import Mathlib.Data.Finset.Sort

/-!
# Connections and signals

What the service keeps beside the store for the sockets that are open: how many
a user has, and the participants of the calls. Typing and call signals are not
stored; a signal is checked against the store and sent to those it names on a
channel of its own.
-/
namespace IamRust

open Core

/-! ## Connections -/

/-- How many connections a user has. -/
abbrev Connections := Map UserId Nat

/-- One more; the flag says whether it is the first.
mirrors crates/application/src/service.rs:592-597 -/
def countConnection (actor : UserId) (connections : Connections) : Bool × Connections :=
  let count := saturatingSucc ((connections.get actor).getD 0)
  (decide (count = 1), connections.insert actor count)

/-- One less; the flag says whether it was the last.
mirrors crates/application/src/service.rs:613-625 -/
def uncountConnection (actor : UserId) (connections : Connections) : Bool × Connections :=
  match connections.get actor with
  | none => (false, connections)
  | some count =>
    if count - 1 = 0 then (true, connections.remove actor)
    else (false, connections.insert actor (count - 1))

/-! ## Typing -/

/-- mirrors crates/application/src/service.rs:109-115 -/
structure TypingSignal where
  conversationId : ConversationId
  userId : UserId
  active : Bool
  expiresAt : DateTime

/-- What is sent on the channel.
mirrors crates/application/src/service.rs:553-585 -/
def publishTyping (s : Store) (actor : UserId) (conversationId : ConversationId) (active : Bool)
    (now : DateTime) : Except ApplicationError (List UserId × TypingSignal) :=
  match s.conversations.get conversationId with
  | none => .error .notFound
  | some conversation =>
    if conversation.canRead actor = false then .error forbidden
    else .ok (conversation.members.keys.filter (· ≠ actor),
      ⟨conversationId, actor, active, now + Duration.seconds 6⟩)

/-! ## Calls -/

/-- mirrors crates/protocol/src/lib.rs:623-645 -/
inductive CallSignal where
  | invite (video : Bool)
  | accept
  | offer (sdp : String)
  | answer (sdp : String)
  | iceCandidate (candidate : String) (sdpMid : Option String) (sdpMlineIndex : Option Nat)
  | participants (userIds : List UserId)
  | reject
  | busy
  | hangup

/-- mirrors crates/application/src/service.rs:117-123 -/
structure CallSignalDelivery where
  conversationId : ConversationId
  callId : Uuid
  fromUserId : UserId
  signal : CallSignal

/-- mirrors crates/application/src/service.rs:164-168 -/
structure CallRoom where
  participants : Finset UserId
  expiresAt : DateTime

abbrev CallRooms := Map (ConversationId × Uuid) CallRoom

/-- mirrors crates/application/src/service.rs:52 -/
def callRoomTtlMinutes : Int := 180

/-- mirrors crates/application/src/service.rs:418-422 -/
def CallSignal.oversized : CallSignal → Bool
  | .offer sdp => decide (Text.byteLen sdp > 262144)
  | .answer sdp => decide (Text.byteLen sdp > 262144)
  | .iceCandidate candidate _ _ => decide (Text.byteLen candidate > 8192)
  | _ => false

def CallSignal.isParticipants : CallSignal → Bool
  | .participants _ => true
  | _ => false

/-- The checks of a call signal, and whom it is for.
mirrors crates/application/src/service.rs:418-454 -/
def callRecipients (s : Store) (actor : UserId) (conversationId : ConversationId) (callId : Uuid)
    (target : Option UserId) (signal : CallSignal) (now : DateTime) :
    Except ApplicationError (List UserId) :=
  if signal.oversized = true ∨ callId = 0 then .error (invalid "call_signal" "invalid_payload")
  else if signal.isParticipants then .error forbidden
  else
    match s.conversations.get conversationId with
    | none => .error .notFound
    | some conversation =>
      if conversation.canSend actor now = false then .error forbidden
      else
        match target with
        | none => .ok (conversation.members.keys.filter (· ≠ actor))
        | some target =>
          if target = actor ∨ conversation.members.containsKey target = false then
            .error forbidden
          else .ok [target]

/-- What a call signal does to the rooms that have not expired. `Accept` answers with the new
roster.
mirrors crates/application/src/service.rs:499-550 -/
def enterCallRoom (actor : UserId) (key : ConversationId × Uuid) (target : Option UserId)
    (signal : CallSignal) (now : DateTime) (rooms : CallRooms) :
    Except ApplicationError (Option (List UserId) × CallRooms) :=
  let expiresAt := now + Duration.minutes callRoomTtlMinutes
  match signal with
  | .invite _ =>
    if rooms.containsKey key then .error .conflict
    else .ok (none, rooms.insert key ⟨{actor}, expiresAt⟩)
  | .accept =>
    match rooms.get key with
    | none => .error .notFound
    | some room =>
      let participants := insert actor room.participants
      .ok (some (participants.sort (· ≤ ·)), rooms.insert key ⟨participants, expiresAt⟩)
  | .offer _ | .answer _ | .iceCandidate _ _ _ =>
    match rooms.get key with
    | none => .error .notFound
    | some room =>
      if actor ∉ room.participants ∨ (target.any fun u => decide (u ∉ room.participants)) = true then
        .error forbidden
      else .ok (none, rooms.insert key { room with expiresAt := expiresAt })
  | .hangup =>
    match rooms.get key with
    | none => .ok (none, rooms)
    | some room =>
      let participants := room.participants.erase actor
      if participants = ∅ then .ok (none, rooms.remove key)
      else .ok (none, rooms.insert key ⟨participants, expiresAt⟩)
  | .reject | .busy | .participants _ => .ok (none, rooms)

/-- Expired rooms are dropped first, also when the signal is refused.
mirrors crates/application/src/service.rs:488-551 -/
def updateCallRoom (actor : UserId) (conversationId : ConversationId) (callId : Uuid)
    (target : Option UserId) (signal : CallSignal) (now : DateTime) (rooms : CallRooms) :
    Except ApplicationError (Option (List UserId)) × CallRooms :=
  let rooms := rooms.retain fun _ room => decide (room.expiresAt > now)
  match enterCallRoom actor (conversationId, callId) target signal now rooms with
  | .error e => (.error e, rooms)
  | .ok (roster, rooms) => (.ok roster, rooms)

/-- What is sent on the channel: the signal, and after an `Accept` the roster.
mirrors crates/application/src/service.rs:466-485 -/
def callDeliveries (recipients : List UserId) (actor : UserId) (conversationId : ConversationId)
    (callId : Uuid) (signal : CallSignal) (roster : Option (List UserId)) :
    List (List UserId × CallSignalDelivery) :=
  (recipients, ⟨conversationId, callId, actor, signal⟩) ::
    (roster.map fun userIds =>
      (userIds, (⟨conversationId, callId, actor, .participants userIds⟩ : CallSignalDelivery))).toList

/-- The store is read, then the rooms are updated under their own lock; the two are one step here.
mirrors crates/application/src/service.rs:409-486 -/
def publishCallSignal (s : Store) (actor : UserId) (conversationId : ConversationId)
    (callId : Uuid) (target : Option UserId) (signal : CallSignal) (now : DateTime)
    (rooms : CallRooms) :
    Except ApplicationError (List (List UserId × CallSignalDelivery)) × CallRooms :=
  match callRecipients s actor conversationId callId target signal now with
  | .error e => (.error e, rooms)
  | .ok recipients =>
    match updateCallRoom actor conversationId callId target signal now rooms with
    | (.error e, rooms) => (.error e, rooms)
    | (.ok roster, rooms) =>
      (.ok (callDeliveries recipients actor conversationId callId signal roster), rooms)

end IamRust
