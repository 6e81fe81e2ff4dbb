import IamRust.L0Core.Interleave
import IamRust.L3Service.Signals
import IamRust.L4Properties.Access

/-!
# Signals on their way

`publish_typing` and `publish_call_signal` step by step: the lock of the store is
given back after the checks, a call then waits for the lock of the rooms, and
what goes on the channel is sent behind that. A transaction may commit at each
of these places.

* `Switchboard`: the store, the rooms and the two channels; `entered` is the
  call signals the rooms took, in order, which the code does not keep.
* `publishCallSignal_alone`: left alone, the steps of a call do what
  `publishCallSignal` says.
-/
namespace IamRust

open Core

/-- The arguments of `publish_call_signal`. -/
structure CallRequest where
  actor : UserId
  conversationId : ConversationId
  callId : Uuid
  target : Option UserId
  signal : CallSignal
  now : DateTime

def CallRequest.key (q : CallRequest) : ConversationId × Uuid := (q.conversationId, q.callId)

structure Switchboard where
  world : World
  callRooms : CallRooms
  typing : List (List UserId × TypingSignal)
  calls : List (List UserId × CallSignalDelivery)
  entered : List CallRequest

/-- Where a signal is: behind the checks, or behind the rooms with what is left to send. -/
inductive Signalling where
  | idle
  | typing (recipients : List UserId) (signal : TypingSignal)
  | checked (request : CallRequest) (recipients : List UserId)
  | sending (request : CallRequest) (deliveries : List (List UserId × CallSignalDelivery))

inductive SignalStep where
  | transaction (op : Op)
  | typing (actor : UserId) (conversationId : ConversationId) (active : Bool) (now : DateTime)
  | call (request : CallRequest)
  | drop
  | enter
  | send

/-- With the rest of the deliveries, if there is one. -/
def Signalling.rest (request : CallRequest) :
    List (List UserId × CallSignalDelivery) → Signalling
  | [] => .idle
  | deliveries => .sending request deliveries

/-- One step. What is refused by the checks, and a transaction that fails, is no step. A call may
be dropped while it waits for the rooms.
mirrors crates/application/src/service.rs:409-585 -/
def Signalling.step (env : Env) (b : Switchboard) :
    Signalling → SignalStep → Option (Switchboard × Signalling)
  | .idle, .transaction op =>
    match op.run env b.world with
    | .error _ => none
    | .ok (_, world) => some ({ b with world := world }, .idle)
  | .idle, .typing actor conversationId active now =>
    match publishTyping b.world.toStore actor conversationId active now with
    | .error _ => none
    | .ok (recipients, signal) => some (b, .typing recipients signal)
  | .typing recipients signal, .send =>
    some ({ b with typing := b.typing ++ [(recipients, signal)] }, .idle)
  | .idle, .call q =>
    match callRecipients b.world.toStore q.actor q.conversationId q.callId q.target q.signal
        q.now with
    | .error _ => none
    | .ok recipients => some (b, .checked q recipients)
  | .checked _ _, .drop => some (b, .idle)
  | .checked q recipients, .enter =>
    match updateCallRoom q.actor q.conversationId q.callId q.target q.signal q.now b.callRooms with
    | (.error _, rooms) => some ({ b with callRooms := rooms }, .idle)
    | (.ok roster, rooms) =>
      some ({ b with callRooms := rooms, entered := b.entered ++ [q] },
        .rest q (callDeliveries recipients q.actor q.conversationId q.callId q.signal roster))
  | .sending q (delivery :: deliveries), .send =>
    some ({ b with calls := b.calls ++ [delivery] }, .rest q deliveries)
  | _, _ => none

/-- Nothing is stored and nobody calls. -/
def Switchboard.fresh : Switchboard := ⟨World.init, .empty, [], [], []⟩

/-- Signals and transactions, in every order. -/
def signalling (ι : Type) (env : Env) : Threads ι Switchboard Signalling SignalStep where
  init b tasks := b = .fresh ∧ ∀ i, tasks i = .idle
  step _ := Signalling.step env

/-- The call and its conversation, while it is on its way. -/
def Signalling.source : Signalling → Option (UserId × ConversationId)
  | .idle => none
  | .typing _ signal => some (signal.userId, signal.conversationId)
  | .checked q _ | .sending q _ => some (q.actor, q.conversationId)

/-! ## What a step can do -/

/-- What a step does. -/
inductive Signals (env : Env) (b : Switchboard) :
    Signalling → SignalStep → Switchboard → Signalling → Prop where
  | ran {op world} (hrun : (op.run env).Runs b.world () world) :
    Signals env b .idle (.transaction op) { b with world := world } .idle
  | typed {actor c active now recipients signal}
    (hok : publishTyping b.world.toStore actor c active now = .ok (recipients, signal)) :
    Signals env b .idle (.typing actor c active now) b (.typing recipients signal)
  | toldTyping {recipients signal} : Signals env b (.typing recipients signal) .send
    { b with typing := b.typing ++ [(recipients, signal)] } .idle
  | checked {q recipients} (hok : callRecipients b.world.toStore q.actor q.conversationId q.callId
      q.target q.signal q.now = .ok recipients) :
    Signals env b .idle (.call q) b (.checked q recipients)
  | dropped {q recipients} : Signals env b (.checked q recipients) .drop b .idle
  | refused {q recipients e rooms} (hroom : updateCallRoom q.actor q.conversationId q.callId
      q.target q.signal q.now b.callRooms = (.error e, rooms)) :
    Signals env b (.checked q recipients) .enter { b with callRooms := rooms } .idle
  | entered {q recipients roster rooms} (hroom : updateCallRoom q.actor q.conversationId q.callId
      q.target q.signal q.now b.callRooms = (.ok roster, rooms)) :
    Signals env b (.checked q recipients) .enter
      { b with callRooms := rooms, entered := b.entered ++ [q] }
      (.rest q (callDeliveries recipients q.actor q.conversationId q.callId q.signal roster))
  | sent {q delivery deliveries} : Signals env b (.sending q (delivery :: deliveries)) .send
    { b with calls := b.calls ++ [delivery] } (.rest q deliveries)

section
variable {env : Env} {b b' : Switchboard} {t t' : Signalling} {l : SignalStep}

theorem signals_of_step (h : t.step env b l = some (b', t')) : Signals env b t l b' t' := by
  unfold Signalling.step at h
  split at h
  · split at h <;> cases h
    exact .ran ‹_›
  · split at h <;> cases h
    exact .typed ‹_›
  · cases h
    exact .toldTyping
  · split at h <;> cases h
    exact .checked ‹_›
  · cases h
    exact .dropped
  · split at h <;> cases h
    · exact .refused ‹_›
    · exact .entered ‹_›
  · cases h
    exact .sent
  · cases h

/-! ## The checks -/

variable {s : Store} {actor target u : UserId} {c : ConversationId} {now : DateTime}

theorem mem_others {conversation : Conversation}
    (h : u ∈ conversation.members.keys.filter (· ≠ actor)) :
    u ≠ actor ∧ conversation.canRead u = true := by
  obtain ⟨hmem, hne⟩ := List.mem_filter.mp h
  exact ⟨of_decide_eq_true hne, Map.containsKey_iff.mpr (Map.mem_keys.mp hmem)⟩

/-- A typing signal is a member's, for the others. -/
theorem publishTyping_ok {active : Bool} {recipients : List UserId} {signal : TypingSignal}
    (h : publishTyping s actor c active now = .ok (recipients, signal)) :
    signal.userId = actor ∧ signal.conversationId = c ∧ s.readable actor c = true ∧
      ∀ u ∈ recipients, u ≠ actor ∧ s.readable u c = true := by
  unfold publishTyping at h
  split at h
  · cases h
  rename_i conversation hget
  split at h
  · cases h
  · cases h
    refine ⟨rfl, rfl, readable_of hget (Bool.of_not_eq_false ‹_›), fun u hu => ?_⟩
    obtain ⟨hne, hread⟩ := mem_others hu
    exact ⟨hne, readable_of hget hread⟩

/-- A call signal is a member's, for other members. -/
theorem callRecipients_ok {q : CallRequest} {recipients : List UserId}
    (h : callRecipients s q.actor q.conversationId q.callId q.target q.signal q.now =
      .ok recipients) : s.readable q.actor q.conversationId = true ∧
      ∀ u ∈ recipients, u ≠ q.actor ∧ s.readable u q.conversationId = true := by
  unfold callRecipients at h
  split at h
  · cases h
  split at h
  · cases h
  split at h
  · cases h
  rename_i conversation hget
  split at h
  · cases h
  rename_i hsend
  refine ⟨readable_of hget (canRead_of_canSend (Bool.of_not_eq_false hsend)), ?_⟩
  split at h
  · cases h
    intro u hu
    obtain ⟨hne, hread⟩ := mem_others hu
    exact ⟨hne, readable_of hget hread⟩
  · split at h
    · cases h
    · rename_i hallowed
      cases h
      rw [not_or, Bool.not_eq_false] at hallowed
      intro u hu
      obtain rfl := List.mem_singleton.mp hu
      exact ⟨hallowed.1, readable_of hget hallowed.2⟩

/-! ## A call by itself -/

theorem sending_alone {ι : Type} [DecidableEq ι] (i : ι) (b : Switchboard) (q : CallRequest)
    (deliveries : List (List UserId × CallSignalDelivery)) :
    ((signalling ι env).alone i).Run (b, .rest q deliveries)
      (deliveries.map fun _ => .send) ({ b with calls := b.calls ++ deliveries }, .idle) := by
  induction deliveries generalizing b with
  | nil =>
    rw [List.append_nil]
    exact .nil _
  | cons delivery deliveries ih =>
    have hsend : ((signalling ι env).alone i).step (b, .rest q (delivery :: deliveries)) .send
        ({ b with calls := b.calls ++ [delivery] }, .rest q deliveries) := rfl
    have hrest := ih { b with calls := b.calls ++ [delivery] }
    rw [List.append_assoc] at hrest
    exact .cons hsend hrest

/-- **A call left alone** does what `publishCallSignal` says. -/
theorem publishCallSignal_alone {ι : Type} [DecidableEq ι] (i : ι) (b : Switchboard)
    (q : CallRequest) {deliveries : List (List UserId × CallSignalDelivery)} {rooms : CallRooms}
    (h : publishCallSignal b.world.toStore q.actor q.conversationId q.callId q.target q.signal q.now
      b.callRooms = (.ok deliveries, rooms)) : ∃ ls,
    ((signalling ι env).alone i).Run (b, .idle) (.call q :: .enter :: ls)
      ({ b with
        callRooms := rooms
        calls := b.calls ++ deliveries
        entered := b.entered ++ [q] }, .idle) := by
  unfold publishCallSignal at h
  split at h
  · cases h
  rename_i recipients hchecked
  split at h
  · cases h
  rename_i roster rooms' hroom
  cases h
  have hcall : ((signalling ι env).alone i).step (b, .idle) (.call q) (b, .checked q recipients) := by
    simp [Threads.alone, signalling, Signalling.step, hchecked]
  have henter : ((signalling ι env).alone i).step (b, .checked q recipients) .enter
      ({ b with callRooms := rooms, entered := b.entered ++ [q] },
        .rest q (callDeliveries recipients q.actor q.conversationId q.callId q.signal roster)) := by
    simp [Threads.alone, signalling, Signalling.step, hroom]
  exact ⟨_, .cons hcall (.cons henter (sending_alone i _ q _))⟩

end

end IamRust
