import IamRust.L5Concurrency.Signalling

/-!
# Who is called

A room keeps whoever entered it until they hang up or the room is dropped;
leaving the conversation does not reach it, nor a signal on its way.

* `rooms_inductive`: a room is never empty, and whoever is in it entered it by an
  `Invite` or an `Accept` and has not hung up since.
* `calls_reach_members`: deliveries go to members only, in the runs in which a
  user who loses a conversation is in no call of it (`Engaged`).
* `removed_is_called`: Alice removes Bob from the group during a call; the roster
  of the next `Accept` is sent to him.
-/
namespace IamRust

open Core

def CallSignal.joins : CallSignal → Bool
  | .invite _ | .accept => true
  | _ => false

/-- The signals a user entered the room by, and did not hang up behind. -/
def JoinedCall (log : List CallRequest) (u : UserId) (key : ConversationId × Uuid) : Prop :=
  ∃ before q after, log = before ++ q :: after ∧ q.actor = u ∧ q.key = key ∧
    q.signal.joins = true ∧ ∀ q' ∈ after, ¬ (q'.actor = u ∧ q'.key = key ∧ q'.signal = .hangup)

/-- Every room has participants, and they are in the call. -/
structure Occupied (rooms : CallRooms) (log : List CallRequest) : Prop where
  nonempty : ∀ key room, rooms.get key = some room → room.participants.Nonempty
  joined : ∀ key room, rooms.get key = some room → ∀ u ∈ room.participants, JoinedCall log u key

theorem JoinedCall.later {log : List CallRequest} {u : UserId} {key : ConversationId × Uuid}
    (h : JoinedCall log u key) {q : CallRequest}
    (hq : ¬ (q.actor = u ∧ q.key = key ∧ q.signal = .hangup)) : JoinedCall (log ++ [q]) u key := by
  obtain ⟨before, q₀, after, rfl, hactor, hkey, hjoins, hafter⟩ := h
  refine ⟨before, q₀, after ++ [q], by simp, hactor, hkey, hjoins, fun q' hq' => ?_⟩
  rcases List.mem_append.mp hq' with hq' | hq'
  · exact hafter q' hq'
  · obtain rfl := List.mem_singleton.mp hq'
    exact hq

theorem joinedCall_new {log : List CallRequest} {q : CallRequest} (h : q.signal.joins = true) :
    JoinedCall (log ++ [q]) q.actor q.key :=
  ⟨log, q, [], rfl, rfl, rfl, h, fun _ hq => absurd hq List.not_mem_nil⟩

/-! ## What the rooms do -/

/-- What a call signal does to the rooms, with the roster it answers with. -/
inductive RoomStep (q : CallRequest) (rooms : CallRooms) :
    Option (List UserId) → CallRooms → Prop where
  | opened {expiresAt} (hsignal : q.signal.joins = true) :
    RoomStep q rooms none (rooms.insert q.key ⟨{q.actor}, expiresAt⟩)
  | accepted {room expiresAt} (hsignal : q.signal.joins = true)
    (hget : rooms.get q.key = some room) :
    RoomStep q rooms (some ((insert q.actor room.participants).sort (· ≤ ·)))
      (rooms.insert q.key ⟨insert q.actor room.participants, expiresAt⟩)
  | exchanged {room expiresAt} (hsignal : q.signal ≠ .hangup)
    (hget : rooms.get q.key = some room) :
    RoomStep q rooms none (rooms.insert q.key { room with expiresAt := expiresAt })
  | left {room expiresAt} (hget : rooms.get q.key = some room)
    (hrest : room.participants.erase q.actor ≠ ∅) :
    RoomStep q rooms none (rooms.insert q.key ⟨room.participants.erase q.actor, expiresAt⟩)
  | closed : RoomStep q rooms none (rooms.remove q.key)
  | unchanged (hsignal : q.signal = .hangup → rooms.get q.key = none) :
    RoomStep q rooms none rooms

section
variable {q : CallRequest} {rooms rooms' : CallRooms} {roster : Option (List UserId)}
  {log : List CallRequest} {key : ConversationId × Uuid} {room' : CallRoom} {u : UserId}

theorem enterCallRoom_step
    (h : enterCallRoom q.actor q.key q.target q.signal q.now rooms = .ok (roster, rooms')) :
    RoomStep q rooms roster rooms' := by
  unfold enterCallRoom at h
  dsimp only at h
  split at h
  case h_1 hsignal =>
    split at h <;> cases h
    exact .opened (hsignal ▸ rfl)
  case h_2 hsignal =>
    split at h <;> cases h
    exact .accepted (hsignal ▸ rfl) ‹_›
  case h_6 hsignal =>
    split at h
    · cases h
      exact .unchanged fun _ => ‹_›
    · split at h <;> cases h
      · exact .closed
      · exact .left ‹_› ‹_›
  case h_3 hsignal | h_4 hsignal | h_5 hsignal =>
    split at h
    · cases h
    · split at h <;> cases h
      exact .exchanged (by simp [hsignal]) ‹_›
  case h_7 hsignal | h_8 hsignal | h_9 hsignal =>
    cases h
    exact .unchanged (by simp [hsignal])

theorem updateCallRoom_step (h : updateCallRoom q.actor q.conversationId q.callId q.target q.signal
    q.now rooms = (.ok roster, rooms')) :
    RoomStep q (rooms.retain fun _ room => decide (room.expiresAt > q.now)) roster rooms' := by
  unfold updateCallRoom at h
  dsimp only at h
  split at h <;> cases h
  exact enterCallRoom_step ‹_›

theorem updateCallRoom_error {e : ApplicationError} (h : updateCallRoom q.actor q.conversationId
    q.callId q.target q.signal q.now rooms = (.error e, rooms')) :
    rooms' = rooms.retain fun _ room => decide (room.expiresAt > q.now) := by
  unfold updateCallRoom at h
  dsimp only at h
  split at h <;> cases h
  rfl

theorem Occupied.retain (h : Occupied rooms log) (p : ConversationId × Uuid → CallRoom → Bool) :
    Occupied (rooms.retain p) log where
  nonempty key room hget := h.nonempty key room (Map.get_of_retain hget)
  joined key room hget := h.joined key room (Map.get_of_retain hget)

/-- Who is in a room behind a call signal: who was, but for the one who hangs up, and the one who
enters. -/
theorem RoomStep.participants (h : RoomStep q rooms roster rooms')
    (hget : rooms'.get key = some room') (hu : u ∈ room'.participants) :
    (q.actor = u ∧ q.key = key ∧ q.signal.joins = true) ∨
    ((∃ room, rooms.get key = some room ∧ u ∈ room.participants) ∧
      ¬ (q.actor = u ∧ q.key = key ∧ q.signal = .hangup)) := by
  have hother : ∀ {room}, rooms.get key = some room → u ∈ room.participants → key ≠ q.key →
      (∃ room, rooms.get key = some room ∧ u ∈ room.participants) ∧
        ¬ (q.actor = u ∧ q.key = key ∧ q.signal = .hangup) :=
    fun hget hu hne => ⟨⟨_, hget, hu⟩, fun h => hne h.2.1.symm⟩
  cases h with
  | opened hsignal =>
    rw [Map.get_insert] at hget
    split at hget
    · cases hget
      exact .inl ⟨(Finset.mem_singleton.mp hu).symm, ‹key = q.key›.symm, hsignal⟩
    · exact .inr (hother hget hu ‹_›)
  | accepted hsignal hroom =>
    rw [Map.get_insert] at hget
    split at hget
    · cases hget
      subst_vars
      rcases Finset.mem_insert.mp hu with rfl | hu
      · exact .inl ⟨rfl, rfl, hsignal⟩
      · refine .inr ⟨⟨_, hroom, hu⟩, fun h => ?_⟩
        rw [h.2.2] at hsignal
        cases hsignal
    · exact .inr (hother hget hu ‹_›)
  | exchanged hsignal hroom =>
    rw [Map.get_insert] at hget
    split at hget
    · cases hget
      subst_vars
      exact .inr ⟨⟨_, hroom, hu⟩, fun h => hsignal h.2.2⟩
    · exact .inr (hother hget hu ‹_›)
  | left hroom =>
    rw [Map.get_insert] at hget
    split at hget
    · cases hget
      subst_vars
      obtain ⟨hne, hu⟩ := Finset.mem_erase.mp hu
      exact .inr ⟨⟨_, hroom, hu⟩, fun h => hne h.1.symm⟩
    · exact .inr (hother hget hu ‹_›)
  | closed =>
    rw [Map.get_remove] at hget
    split at hget
    · cases hget
    · exact .inr (hother hget hu ‹_›)
  | unchanged hsignal =>
    refine .inr ⟨⟨_, hget, hu⟩, fun h => ?_⟩
    rw [← h.2.1, hsignal h.2.2] at hget
    cases hget

/-- **Rooms.** A call signal leaves every room occupied. -/
theorem RoomStep.occupied (h : RoomStep q rooms roster rooms') (hrooms : Occupied rooms log) :
    Occupied rooms' (log ++ [q]) where
  nonempty key room' hget := by
    have hold : rooms.get key = some room' → room'.participants.Nonempty :=
      hrooms.nonempty key room'
    cases h with
    | opened =>
      rw [Map.get_insert] at hget
      split at hget
      · cases hget
        exact Finset.singleton_nonempty _
      · exact hold hget
    | accepted =>
      rw [Map.get_insert] at hget
      split at hget
      · cases hget
        exact Finset.insert_nonempty _ _
      · exact hold hget
    | exchanged _ hroom =>
      rw [Map.get_insert] at hget
      split at hget
      · cases hget
        have hroom := hrooms.nonempty _ _ hroom
        exact hroom
      · exact hold hget
    | left _ hrest =>
      rw [Map.get_insert] at hget
      split at hget
      · cases hget
        exact Finset.nonempty_iff_ne_empty.mpr hrest
      · exact hold hget
    | closed =>
      exact hold (Map.get_of_remove hget)
    | unchanged => exact hold hget
  joined key room' hget u hu := by
    rcases h.participants hget hu with ⟨rfl, rfl, hjoins⟩ | ⟨⟨room, hroom, hu⟩, hstays⟩
    · exact joinedCall_new hjoins
    · exact (hrooms.joined key room hroom u hu).later hstays

/-- The roster is whom the room has. -/
theorem RoomStep.listed {us : List UserId} (h : RoomStep q rooms (some us) rooms') (hu : u ∈ us) :
    ∃ room', rooms'.get q.key = some room' ∧ u ∈ room'.participants := by
  cases h with
  | accepted => exact ⟨_, Map.get_insert_self .., (Finset.mem_sort _).mp hu⟩

theorem Occupied.step {env : Env} {b b' : Switchboard} {t t' : Signalling} {l : SignalStep}
    (hstep : Signals env b t l b' t') (h : Occupied b.callRooms b.entered) :
    Occupied b'.callRooms b'.entered := by
  cases hstep with
  | ran | typed | toldTyping | checked | dropped | sent => exact h
  | refused hroom =>
    obtain rfl := updateCallRoom_error hroom
    exact h.retain _
  | entered hroom => exact (updateCallRoom_step hroom).occupied (h.retain _)

end

/-! ## Every run -/

theorem rooms_inductive (ι : Type) [DecidableEq ι] (env : Env) : (signalling ι env).lts.Inductive
    fun x => Occupied x.1.callRooms x.1.entered where
  init x hx := by
    obtain ⟨hfresh, -⟩ := hx
    rw [hfresh]
    constructor <;> intro key room hget <;> cases (Map.get_empty _).symm.trans hget
  step x l x' h hstep := by
    obtain ⟨t, htask, -⟩ := hstep
    exact h.step (signals_of_step htask)

/-! ## Members -/

/-- The user is in a call of the conversation. -/
def CallRooms.Has (rooms : CallRooms) (u : UserId) (id : ConversationId) : Prop :=
  ∃ callId room, rooms.get (id, callId) = some room ∧ u ∈ room.participants

/-- A call signal of the conversation is on its way from the user or to the user. -/
def Signalling.Involves (u : UserId) (id : ConversationId) : Signalling → Prop
  | .checked q recipients => q.conversationId = id ∧ (u = q.actor ∨ u ∈ recipients)
  | .sending _ deliveries => ∃ d ∈ deliveries, d.2.conversationId = id ∧ u ∈ d.1
  | _ => False

def Engaged {ι : Type} (x : Switchboard × (ι → Signalling)) (u : UserId) (id : ConversationId) :
    Prop :=
  x.1.callRooms.Has u id ∨ ∃ i, (x.2 i).Involves u id

/-- Whoever the step takes a conversation from is in no call of it. -/
def LeavesCallsFirst {ι : Type} (x : Switchboard × (ι → Signalling)) (l : ι × SignalStep) : Prop :=
  ∀ op u id, l.2 = .transaction op → op.Removes u id → ¬ Engaged x u id

/-- The participants are members. -/
structure Switchboard.Staffed (env : Env) (b : Switchboard) : Prop where
  world : (service env).Reachable b.world
  rooms : ∀ u id, b.callRooms.Has u id → b.world.readable u id = true

/-- The others a signal is on its way from or to are. -/
def Signalling.Staffed (b : Switchboard) (t : Signalling) : Prop :=
  ∀ u id, t.Involves u id → b.world.readable u id = true

section
variable {env : Env} {b b' : Switchboard} {t t' : Signalling} {l : SignalStep}

theorem CallRooms.Has.of_retain {rooms : CallRooms} {p : ConversationId × Uuid → CallRoom → Bool}
    {u : UserId} {id : ConversationId} (h : CallRooms.Has (rooms.retain p) u id) :
    rooms.Has u id := by
  obtain ⟨callId, room, hget, hu⟩ := h
  exact ⟨callId, room, Map.get_of_retain hget, hu⟩

/-- Who is in a call behind a call signal: who was, and the one whose signal it is. -/
theorem RoomStep.has {q : CallRequest} {rooms rooms' : CallRooms} {roster : Option (List UserId)}
    (h : RoomStep q rooms roster rooms') {u : UserId} {id : ConversationId}
    (hu : rooms'.Has u id) : rooms.Has u id ∨ (u = q.actor ∧ id = q.conversationId) := by
  obtain ⟨callId, room, hget, hu⟩ := hu
  rcases h.participants hget hu with ⟨rfl, hkey, -⟩ | ⟨⟨room, hroom, hu⟩, -⟩
  · exact .inr ⟨rfl, (congrArg Prod.fst hkey).symm⟩
  · exact .inl ⟨callId, room, hroom, hu⟩

theorem involves_rest {q : CallRequest} {deliveries : List (List UserId × CallSignalDelivery)}
    {u : UserId} {id : ConversationId} (h : (Signalling.rest q deliveries).Involves u id) :
    ∃ d ∈ deliveries, d.2.conversationId = id ∧ u ∈ d.1 := by
  cases deliveries with
  | nil => exact h.elim
  | cons => exact h

/-- A member of the conversation of a call is one after a transaction that leaves calls first. -/
theorem readable_ran {op : Op} {w w' : World} (hu : Function.Injective env.uuid)
    (hw : (service env).Reachable w) (hrun : (op.run env).Runs w () w') {u : UserId}
    {id : ConversationId} (hread : w.readable u id = true) (hkept : ¬ op.Removes u id) :
    w'.readable u id = true := by
  have hfresh := ((placed_inductive hu).reachable hw).fresh hu
  exact (op.readable hrun hfresh).mpr (.inl ⟨hread, hkept⟩)

variable {ι : Type} [DecidableEq ι]

theorem staffed_inductive (hu : Function.Injective env.uuid) :
    ((signalling ι env).lts.restrict LeavesCallsFirst).Inductive
      (Threads.Holds (Switchboard.Staffed env) Signalling.Staffed fun _ _ => True) := by
  refine Threads.holds_inductive (fun x hx => ?_) (fun _ _ h => h) ?_ ?_
  · obtain ⟨hfresh, hidle⟩ := hx
    refine ⟨?_, fun i => ?_, fun _ _ _ => trivial⟩
    · rw [hfresh]
      refine ⟨.init rfl, ?_⟩
      rintro u id ⟨callId, room, hget, -⟩
      cases (Map.get_empty _).symm.trans hget
    · rw [hidle i]
      exact fun _ _ h => h.elim
  · intro x i l b' t' hok hI hL hstep
    have hsignals := signals_of_step hstep
    generalize hx : x.2 i = t at hsignals hL
    cases hsignals with
    | @ran op world hrun =>
      refine ⟨⟨hI.world.step hrun, fun u id hhas => ?_⟩, fun _ _ h => h.elim⟩
      exact readable_ran hu hI.world hrun (hI.rooms u id hhas)
        fun hremoves => hok op u id rfl hremoves (.inl hhas)
    | typed => exact ⟨hI, fun _ _ h => h.elim⟩
    | toldTyping => exact ⟨⟨hI.world, hI.rooms⟩, fun _ _ h => h.elim⟩
    | checked hchecked =>
      obtain ⟨hactor, hrecipients⟩ := callRecipients_ok hchecked
      refine ⟨hI, ?_⟩
      rintro u id ⟨rfl, rfl | hmem⟩
      · exact hactor
      · exact (hrecipients u hmem).2
    | dropped => exact ⟨hI, fun _ _ h => h.elim⟩
    | refused hroom =>
      obtain rfl := updateCallRoom_error hroom
      exact ⟨⟨hI.world, fun u id hhas => hI.rooms u id hhas.of_retain⟩, fun _ _ h => h.elim⟩
    | @entered q recipients roster rooms hroom =>
      have hstep := updateCallRoom_step hroom
      have hrooms : ∀ u id, rooms.Has u id → x.1.world.readable u id = true := by
        intro u id hhas
        rcases hstep.has hhas with hold | ⟨rfl, rfl⟩
        · exact hI.rooms u id hold.of_retain
        · exact hL _ _ ⟨rfl, .inl rfl⟩
      refine ⟨⟨hI.world, hrooms⟩, fun u id hinvolves => ?_⟩
      obtain ⟨d, hd, rfl, hmem⟩ := involves_rest hinvolves
      rcases List.mem_cons.mp hd with rfl | hd
      · exact hL _ _ ⟨rfl, .inr hmem⟩
      · obtain ⟨us, hus, rfl⟩ := Option.map_eq_some_iff.mp (Option.mem_toList.mp hd)
        subst hus
        obtain ⟨room, hget, hmem⟩ := hstep.listed hmem
        exact hrooms u _ ⟨q.callId, room, hget, hmem⟩
    | sent =>
      refine ⟨⟨hI.world, hI.rooms⟩, fun u id hinvolves => ?_⟩
      obtain ⟨d, hd, hid, hmem⟩ := involves_rest hinvolves
      exact hL u id ⟨d, List.mem_cons_of_mem _ hd, hid, hmem⟩
  · intro x i l b' t' j hok _ hI _ hLj _ hstep
    refine ⟨?_, trivial⟩
    have hsignals := signals_of_step hstep
    generalize hx : x.2 i = t at hsignals
    cases hsignals with
    | @ran op world hrun =>
      exact fun u id hinvolves => readable_ran hu hI.world hrun (hLj u id hinvolves)
        fun hremoves => hok op u id rfl hremoves (.inr ⟨j, hinvolves⟩)
    | typed | toldTyping | checked | dropped | refused | entered | sent => exact hLj

/-- What a step puts on the channel of the calls was on its way. -/
theorem Signals.published (h : Signals env b t l b' t') {d : List UserId × CallSignalDelivery}
    (hd : d ∈ b'.calls.drop b.calls.length) :
    b'.world = b.world ∧ ∀ u ∈ d.1, t.Involves u d.2.conversationId := by
  cases h with
  | ran | typed | toldTyping | checked | dropped | refused | entered =>
    simp at hd
  | sent =>
    rw [List.drop_left, List.mem_singleton] at hd
    subst hd
    exact ⟨rfl, fun u hu => ⟨_, List.mem_cons_self, rfl, hu⟩⟩

end

/-- **Calls stay among members.** Every room of a call has participants, and each of them entered
it by an `Invite` or an `Accept` and has not hung up since. If whoever loses a conversation is in
no call of it and no signal of one is on its way from or to them, then every delivery is addressed
to members of the conversation when it is sent. -/
theorem calls_reach_members (ι : Type) [DecidableEq ι] (env : Env)
    (hu : Function.Injective env.uuid) :
    (∀ x, (signalling ι env).lts.Reachable x → Occupied x.1.callRooms x.1.entered) ∧
    ∀ x, ((signalling ι env).lts.restrict LeavesCallsFirst).Reachable x →
      ∀ l x', (signalling ι env).lts.step x l x' →
        ∀ d ∈ x'.1.calls.drop x.1.calls.length, ∀ u ∈ d.1,
          x'.1.world.readable u d.2.conversationId = true := by
  refine ⟨fun x hx => (rooms_inductive ι env).reachable hx, ?_⟩
  intro x hx l x' hstep d hd u hmem
  obtain ⟨t, htask, -⟩ := hstep
  obtain ⟨hworld, hinvolves⟩ := (signals_of_step htask).published hd
  rw [hworld]
  exact ((staffed_inductive hu).reachable hx).thread l.1 u _ (hinvolves u hmem)

/-- What can be computed of it: a transaction that takes no conversation from anybody. -/
def SignalStep.keepsMembers : SignalStep → Bool
  | .transaction (.leaveGroup _ _ _) | .transaction (.removeGroupMember _ _ _ _)
  | .transaction (.disbandGroup _ _ _) | .transaction (.deleteAccount _ _ _ _) => false
  | _ => true

theorem leavesCallsFirst_of_keeps {ι : Type} {x : Switchboard × (ι → Signalling)}
    {l : ι × SignalStep} (h : l.2.keepsMembers = true) : LeavesCallsFirst x l := by
  intro op u id hop hremoves
  rw [hop] at h
  cases op
  case leaveGroup | removeGroupMember | disbandGroup | deleteAccount => cases h
  all_goals exact hremoves.elim

/-- Alice and Bob are friends with a group, and the signals that follow. -/
def aliceAndBobSignal (ls : List SignalStep) : List (Unit × SignalStep) :=
  (aliceAndBob.map SignalStep.transaction ++ ls).map fun l => ((), l)

section
variable {ι : Type} [DecidableEq ι]

/-- Behind an `Accept` the roster goes to everybody in the room. -/
theorem accept_sends (env : Env) {x : Switchboard × (ι → Signalling)} {i : ι} (q : CallRequest)
    {recipients : List UserId} {room : CallRoom} (hidle : x.2 i = .idle)
    (hchecked : callRecipients x.1.world.toStore q.actor q.conversationId q.callId q.target q.signal
      q.now = .ok recipients)
    (hsignal : q.signal = .accept) (hroom : x.1.callRooms.get q.key = some room)
    (hlive : room.expiresAt > q.now) : ∃ x₁ x₂,
    (signalling ι env).lts.Run x [(i, .call q), (i, .enter), (i, .send)] x₁ ∧
    (signalling ι env).lts.step x₁ (i, .send) x₂ ∧ x₂.1.world = x.1.world ∧
    ∃ d, x₂.1.calls.drop x₁.1.calls.length = [d] ∧ d.2.conversationId = q.conversationId ∧
      ∀ u ∈ insert q.actor room.participants, u ∈ d.1 := by
  let rooms := x.1.callRooms.retain fun _ room => decide (room.expiresAt > q.now)
  let roster := (insert q.actor room.participants).sort (· ≤ ·)
  have hget : rooms.get q.key = some room := by
    simp only [rooms, Map.get_retain, hroom, Option.filter_some, hlive, decide_true, if_true]
  have henter : ∃ rooms', updateCallRoom q.actor q.conversationId q.callId q.target q.signal q.now
      x.1.callRooms = (.ok (some roster), rooms') := by
    simp only [CallRequest.key] at hget
    simp only [updateCallRoom, enterCallRoom, hsignal, rooms] at hget ⊢
    rw [hget]
    exact ⟨_, rfl⟩
  obtain ⟨rooms', henter⟩ := henter
  let b₁ : Switchboard := { x.1 with callRooms := rooms', entered := x.1.entered ++ [q] }
  let told : List UserId × CallSignalDelivery :=
    (recipients, ⟨q.conversationId, q.callId, q.actor, q.signal⟩)
  let d : List UserId × CallSignalDelivery :=
    (roster, ⟨q.conversationId, q.callId, q.actor, .participants roster⟩)
  let f : Signalling → ι → Signalling := fun t => Function.update x.2 i t
  have hcall : (signalling ι env).lts.step x (i, .call q) (x.1, f (.checked q recipients)) :=
    ⟨.checked q recipients, by simp [signalling, Signalling.step, hidle, hchecked], rfl⟩
  have hentered : (signalling ι env).lts.step (x.1, f (.checked q recipients)) (i, .enter)
      (b₁, f (.sending q [told, d])) :=
    ⟨.sending q [told, d], by simp [signalling, Signalling.step, f, henter, Signalling.rest,
      callDeliveries, b₁, told, d], by simp [f]⟩
  have htold : (signalling ι env).lts.step (b₁, f (.sending q [told, d])) (i, .send)
      ({ b₁ with calls := b₁.calls ++ [told] }, f (.sending q [d])) :=
    ⟨.sending q [d], by simp [signalling, Signalling.step, f, Signalling.rest], by simp [f]⟩
  have hsent : (signalling ι env).lts.step
      ({ b₁ with calls := b₁.calls ++ [told] }, f (.sending q [d])) (i, .send)
      ({ b₁ with calls := b₁.calls ++ [told] ++ [d] }, f .idle) :=
    ⟨.idle, by simp [signalling, Signalling.step, f, Signalling.rest], by simp [f]⟩
  refine ⟨_, _, .cons hcall (.cons hentered (.cons htold (.nil _))), hsent, rfl, d,
    List.drop_left, rfl, fun u hu => (Finset.mem_sort _).mpr hu⟩

end

/-- Alice may accept call `50` of group `11`, which Bob is in, as a member of the group or not. -/
def callGoesOn (member : Bool) (x : Switchboard × (Unit → Signalling)) : Bool :=
  (match x.2 () with | .idle => true | _ => false) &&
    (callRecipients x.1.world.toStore 1 11 50 none .accept 0).toBool &&
    ((x.1.callRooms.get (11, 50)).any fun room =>
      decide (room.expiresAt > 0) && decide (4 ∈ room.participants)) &&
    (x.1.world.readable 4 11 == member)

theorem callGoesOn_accept {member : Bool} {x : Switchboard × (Unit → Signalling)}
    (h : callGoesOn member x = true) : ∃ x₁ x₂,
    (signalling Unit Env.numbered).lts.Run x
      [((), .call ⟨1, 11, 50, none, .accept, 0⟩), ((), .enter), ((), .send)] x₁ ∧
    (signalling Unit Env.numbered).lts.step x₁ ((), .send) x₂ ∧
    ∃ d ∈ x₂.1.calls.drop x₁.1.calls.length, d.2.conversationId = 11 ∧ 4 ∈ d.1 ∧
      x₂.1.world.readable 4 11 = member := by
  simp only [callGoesOn, Bool.and_eq_true, beq_iff_eq] at h
  obtain ⟨⟨⟨hidle, hok⟩, hroom⟩, hread⟩ := h
  have hidle : x.2 () = .idle := by
    split at hidle
    · assumption
    · cases hidle
  obtain ⟨recipients, hchecked⟩ : ∃ recipients,
      callRecipients x.1.world.toStore 1 11 50 none .accept 0 = .ok recipients := by
    cases hc : callRecipients x.1.world.toStore 1 11 50 none .accept 0 with
    | ok recipients => exact ⟨recipients, rfl⟩
    | error e =>
      rw [hc] at hok
      cases hok
  obtain ⟨room, hget, hroom⟩ := (Option.any_eq_true ..).mp hroom
  obtain ⟨hlive, hmem⟩ := Bool.and_eq_true_iff.mp hroom
  obtain ⟨x₁, x₂, hrun, hstep, hworld, d, hsent, hid, hall⟩ :=
    accept_sends Env.numbered ⟨1, 11, 50, none, .accept, 0⟩ hidle hchecked rfl hget
      (of_decide_eq_true hlive)
  exact ⟨x₁, x₂, hrun, hstep, d, hsent ▸ List.mem_singleton_self d, hid,
    hall 4 (Finset.mem_insert_of_mem (of_decide_eq_true hmem)), hworld ▸ hread⟩

/-- Alice accepts Bob's call in their group; the roster is sent to him. -/
theorem calls_reach_members_accepted : ∃ x x' : Switchboard × (Unit → Signalling),
    ((signalling Unit Env.numbered).lts.restrict LeavesCallsFirst).Reachable x ∧
    (signalling Unit Env.numbered).lts.step x ((), .send) x' ∧
    ∃ d ∈ x'.1.calls.drop x.1.calls.length, d.2.conversationId = 11 ∧ 4 ∈ d.1 ∧
      ∀ u ∈ d.1, x'.1.world.readable u d.2.conversationId = true := by
  have hcheck : ∀ (x : Switchboard × (Unit → Signalling)) (l : Unit × SignalStep),
      l.2.keepsMembers = true → LeavesCallsFirst x l := fun _ _ => leavesCallsFirst_of_keeps
  obtain ⟨x, hx, hp⟩ := (signalling Unit Env.numbered).reaches_checked hcheck
    (.fresh, fun _ => .idle) ⟨rfl, fun _ => rfl⟩
    (aliceAndBobSignal [.call ⟨4, 11, 50, none, .invite false, 0⟩, .enter, .send])
    (callGoesOn true) (by decide +kernel)
  obtain ⟨x₁, x₂, hrun, hstep, d, hd, hid, hto, -⟩ := callGoesOn_accept hp
  have hx₁ : ((signalling Unit Env.numbered).lts.restrict LeavesCallsFirst).Reachable x₁ :=
    hx.run (hrun.restrict fun l hl y => leavesCallsFirst_of_keeps (by
      simp only [List.mem_cons, List.not_mem_nil, or_false] at hl
      rcases hl with rfl | rfl | rfl <;> rfl))
  exact ⟨x₁, x₂, hx₁, hstep, d, hd, hid, hto,
    (calls_reach_members Unit Env.numbered Env.numbered_injective).2 x₁ hx₁ _ x₂ hstep d hd⟩

/-- Bob calls the group and is removed from it. When Alice accepts, he is sent the roster. -/
theorem removed_is_called : ∃ x x' : Switchboard × (Unit → Signalling),
    (signalling Unit Env.numbered).lts.Reachable x ∧
    (signalling Unit Env.numbered).lts.step x ((), .send) x' ∧
    ¬ ∀ d ∈ x'.1.calls.drop x.1.calls.length, ∀ u ∈ d.1,
      x'.1.world.readable u d.2.conversationId = true := by
  obtain ⟨x, hx, hp⟩ := (signalling Unit Env.numbered).reaches (.fresh, fun _ => .idle)
    ⟨rfl, fun _ => rfl⟩
    (aliceAndBobSignal [.call ⟨4, 11, 50, none, .invite false, 0⟩, .enter, .send,
      .transaction (.removeGroupMember 1 11 4 0)])
    (callGoesOn false) (by decide +kernel)
  obtain ⟨x₁, x₂, hrun, hstep, d, hd, hid, hto, hread⟩ := callGoesOn_accept hp
  refine ⟨x₁, x₂, hx.run hrun, hstep, fun hall => ?_⟩
  have hmember := hall d hd 4 hto
  rw [hid, hread] at hmember
  cases hmember

end IamRust
