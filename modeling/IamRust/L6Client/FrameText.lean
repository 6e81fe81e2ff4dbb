import IamRust.L4Properties.Authorship
import IamRust.L5Concurrency.Sockets
import IamRust.L6Client.FrameRead
import IamRust.L6Client.Schedule
import IamRust.L6Client.Unread

/-!
# Frames, read back

* `server_frames_read`: whatever the server has sent on a socket, the client reads
  from the text: of an event the message it carries.
* `client_frames_read`: the server reads the frames of a client.

`serde_json` reads no text that nests too deep, so for both it matters that a bundle
is never put into a bundle (`contents_shallow`).
-/
namespace IamRust

open Core

/-! ## How deep values nest -/

section
variable {chrono : Chrono}

@[simp] theorem depth_uuid (u : Uuid) : (jsonUuid u).depth = 0 := by simp [jsonUuid, Json.depth]

@[simp] theorem depth_nat (n : Nat) : (jsonNat n).depth = 0 := by simp [jsonNat, Json.depth]

@[simp] theorem depth_time (t : DateTime) : (jsonTime chrono t).depth = 0 := by
  simp [jsonTime, Json.depth]

@[simp] theorem depth_date (d : NaiveDate) : (jsonDate chrono d).depth = 0 := by
  simp [jsonDate, Json.depth]

@[simp] theorem depth_string (s : String) : (Json.string s).depth = 0 := by simp [Json.depth]

theorem depth_option {α : Type} {f : α → Json} (h : ∀ a, (f a).depth = 0) (o : Option α) :
    (jsonOption f o).depth = 0 := by
  cases o with
  | none => simp [jsonOption, Json.depth]
  | some a => exact h a

@[simp] theorem depth_optionUuid (o : Option Uuid) : (jsonOption jsonUuid o).depth = 0 :=
  depth_option depth_uuid o

@[simp] theorem depth_optionText (o : Option String) : (jsonOption Json.string o).depth = 0 :=
  depth_option depth_string o

@[simp] theorem depth_optionNat (o : Option Nat) : (jsonOption jsonNat o).depth = 0 :=
  depth_option depth_nat o

@[simp] theorem depth_optionTime (o : Option DateTime) :
    (jsonOption (jsonTime chrono) o).depth = 0 := depth_option depth_time o

@[simp] theorem depth_optionDate (o : Option NaiveDate) :
    (jsonOption (jsonDate chrono) o).depth = 0 := depth_option depth_date o

theorem depth_uuids (ids : List Uuid) : (jsonUuids ids).depth ≤ 1 :=
  Json.depth_map_le fun u _ => Nat.le_of_eq (depth_uuid u)

theorem depth_conversation (c : Conversation) : (c.json chrono).depth ≤ 3 := by
  have hkind : c.kind.json.depth = 1 := by
    cases c.kind <;> simp [ConversationKind.json, Json.depth, Json.depthFields]
  have hmembers : (jsonMembers chrono c.members).depth ≤ 2 := by
    refine Nat.succ_le_succ (Json.depthFields_le fun f hf => ?_)
    obtain ⟨entry, -, rfl⟩ := List.mem_map.mp hf
    simp [ConversationMember.json, Json.depth, Json.depthFields]
  simp [Conversation.json, Json.depth, Json.depthFields, hkind]
  omega

theorem depth_poll (p : GroupPoll) : (p.json chrono).depth ≤ 4 := by
  have hoptions : (Json.array (p.options.map GroupPollOption.json)).depth ≤ 3 := by
    refine Json.depth_map_le fun o _ => ?_
    have hvoters := depth_uuids o.voterIds
    simp [GroupPollOption.json, Json.depth, Json.depthFields]
    omega
  rw [Json.depth] at hoptions
  simp [GroupPoll.json, Json.depth, Json.depthFields]
  omega

theorem depth_reactions (l : List MessageReaction) :
    (Json.array (l.map MessageReaction.json)).depth ≤ 3 := by
  refine Json.depth_map_le fun r _ => ?_
  have husers := depth_uuids r.userIds
  simp [MessageReaction.json, Json.depth, Json.depthFields]
  omega

/-! ### Contents -/

/-- No bundle in a bundle. -/
def MessageContent.shallow : MessageContent → Bool
  | .forwardBundle _ messages => messages.all fun m => !m.content.isForwardBundle
  | _ => true

/-- A content that is no bundle. -/
theorem depth_single {content : MessageContent} (h : content.isForwardBundle = false) :
    (content.json chrono).depth ≤ 3 := by
  have hattachment : ∀ a : Attachment, a.json.depth = 1 := fun a => by
    simp [Attachment.json, Json.depth, Json.depthFields]
  cases content with
  | forwardBundle title messages => cases h
  | _ => simp [MessageContent.json, depth_contentJson, Json.depthFields, hattachment]

theorem depth_forwarded {messages : List ForwardedMessage}
    (h : messages.all (fun m => !m.content.isForwardBundle) = true) :
    Json.depthItems (jsonForwarded chrono messages) ≤ 4 := by
  induction messages with
  | nil => exact Nat.zero_le 4
  | cons m messages ih =>
    rw [List.all_cons, Bool.and_eq_true, Bool.not_eq_true'] at h
    have hcontent : (m.content.json chrono).depth ≤ 3 := depth_single h.1
    have hrest := ih h.2
    simp [jsonForwarded, Json.depthItems, Json.depth, Json.depthFields]
    omega

theorem depth_content {content : MessageContent} (h : content.shallow = true) :
    (content.json chrono).depth ≤ 7 := by
  cases content with
  | forwardBundle title messages =>
    have hmessages : Json.depthItems (jsonForwarded chrono messages) ≤ 4 := depth_forwarded h
    simp [MessageContent.json, depth_contentJson, Json.depthFields, Json.depth]
    omega
  | _ => exact Nat.le_trans (depth_single rfl) (by decide)

theorem depth_message {m : Message} (h : m.content.shallow = true) :
    (m.json chrono).depth ≤ 8 := by
  have hcontent : (m.content.json chrono).depth ≤ 7 := depth_content h
  have hmentions := depth_uuids m.mentions
  simp [Message.json, Json.depth, Json.depthFields]
  omega

theorem depth_payload {payload : EventPayload}
    (h : ∀ m, payload.version = some m → m.content.shallow = true) :
    (payload.json chrono).depth ≤ 9 := by
  cases payload with
  | message m | messageForwarded m =>
    have hm : (m.json chrono).depth ≤ 8 := depth_message (h m rfl)
    simp [EventPayload.json, Json.depth, Json.depthFields]
    omega
  | conversation c | conversationMember c =>
    have hc : (c.json chrono).depth ≤ 3 := depth_conversation c
    simp [EventPayload.json, Json.depth, Json.depthFields]
    omega
  | conversationAdded c ids =>
    have hc : (c.json chrono).depth ≤ 3 := depth_conversation c
    have hids := depth_uuids ids
    simp [EventPayload.json, Json.depth, Json.depthFields]
    omega
  | removedFriendIds ids =>
    have hids := depth_uuids ids
    simp [EventPayload.json, Json.depth, Json.depthFields]
    omega
  | groupAnnouncement a =>
    have hreaders := depth_uuids a.readBy
    simp [EventPayload.json, GroupAnnouncement.json, Json.depth, Json.depthFields]
    omega
  | groupPoll p =>
    have hp : (p.json chrono).depth ≤ 4 := depth_poll p
    simp [EventPayload.json, Json.depth, Json.depthFields]
    omega
  | messageReactions id l =>
    have hl := depth_reactions l
    rw [Json.depth] at hl
    simp [EventPayload.json, Json.depth, Json.depthFields]
    omega
  | _ =>
    simp [EventPayload.json, UserProfile.json, ProfilePrivacySettings.json, FriendRequest.json,
      FriendSettings.json, GroupJoinRequest.json, ConversationSettings.json, Json.depth,
      Json.depthFields]

end

/-! ## No bundle in a bundle -/

theorem shallow_of_single {content : MessageContent} (h : content.isForwardBundle = false) :
    content.shallow = true := by
  cases content with
  | forwardBundle title messages => cases h
  | _ => rfl

/-- What a forward appends nests no deeper than what it takes. -/
theorem forwardContents_shallow {s : Store} {actor : UserId} {mode : ForwardMode}
    {ids : List MessageId} {sources : List ForwardedMessage} {content : MessageContent}
    (hs : ∀ c, ∀ m ∈ s.timeline c, m.content.shallow = true)
    (hsources : collectForwardSources s actor mode ids = .ok sources)
    (hcontent : content ∈ forwardContents mode sources) : content.shallow = true := by
  cases mode with
  | individually =>
    obtain ⟨source, hsource, rfl⟩ := List.mem_map.mp hcontent
    obtain ⟨c, m, hm, hcontent, -, -⟩ := collectForwardSources_plain hsources hsource
    rw [hcontent]
    exact hs c m hm
  | merged =>
    obtain rfl := List.mem_singleton.mp hcontent
    refine List.all_eq_true.mpr fun source hsource => ?_
    obtain ⟨c, m, -, hcontent, -, hsingle⟩ := collectForwardSources_plain hsources hsource
    rw [hcontent, hsingle rfl]
    rfl

/-- A full message comes in an event of a message. -/
structure KindsMatch (w w' : World) : Prop where
  log : ∃ new, w'.events = w.events ++ new ∧ ∀ e ∈ new, e.event.payload.version = e.event.version

instance : IsPreorder World KindsMatch where
  refl w := ⟨[], by simp, by simp⟩
  trans w w₁ w₂ h₁ h₂ := by
    obtain ⟨new₁, he₁, hk₁⟩ := h₁.log
    obtain ⟨new₂, he₂, hk₂⟩ := h₂.log
    refine ⟨new₁ ++ new₂, by rw [he₂, he₁, List.append_assoc], fun e he => ?_⟩
    rcases List.mem_append.mp he with he | he
    · exact hk₁ e he
    · exact hk₂ e he

instance : Telling KindsMatch where
  same {w w'} _ he := by
    have he : w'.events = w.events := he
    exact ⟨[], by simpa using he, by simp⟩
  event {w w' e} _ he hp := by
    refine ⟨[e], he, fun e' he' => ?_⟩
    cases List.mem_singleton.mp he'
    rw [hp, SyncEvent.version_eq_none hp]
  posted {env w m w' e} _ he hcreated := by
    refine ⟨[e], he, fun e' he' => ?_⟩
    cases List.mem_singleton.mp he'
    have hversion := SyncEvent.version_of_created hcreated
    rw [SyncEvent.payload_version hversion, hversion]

section
variable {env : Env} {w w' : World}

theorem Op.kindsMatch {op : Op} (h : (op.run env).Runs w () w') : KindsMatch w w' := by
  by_cases hop : ∃ actor messageId now, op = .recallMessage actor messageId now
  · obtain ⟨actor, messageId, now, rfl⟩ := hop
    obtain ⟨m, hr⟩ := Tx.runs_void.mp h
    obtain ⟨-, -, -, -, e, he, hversion, -⟩ := recallMessage_effect hr
    refine ⟨[e], he, fun e' he' => ?_⟩
    cases List.mem_singleton.mp he'
    rw [SyncEvent.payload_version hversion, hversion]
  · exact Op.telling (fun actor messageId now he => hop ⟨actor, messageId, now, he⟩) h

/-- In what is stored and in what was told. -/
structure World.Shallow (w : World) : Prop where
  stored : ∀ c, ∀ m ∈ w.timeline c, m.content.shallow = true
  told : ∀ e ∈ w.events, ∀ m, e.event.payload.version = some m → m.content.shallow = true

theorem World.Shallow.step {op : Op} (ht : Timelines env w) (hw : w.Shallow)
    (h : (op.run env).Runs w () w') : w'.Shallow := by
  have hstored : ∀ c, ∀ m ∈ w'.timeline c, m.content.shallow = true := by
    intro c m hm
    obtain ⟨i, hat⟩ := Store.messageAt_of_mem hm
    cases Op.origin h hat with
    | kept hat => exact hw.stored c m (Store.mem_of_messageAt hat)
    | recalled _ _ hrecalled =>
      rw [hrecalled]
      rfl
    | notice hrun =>
      refine shallow_of_single ?_
      have hsystem := (appendSystemMessage_noticed hrun).system
      cases hcontent : m.content <;> rw [hcontent] at hsystem <;> first | rfl | cases hsystem
    | sent hop _ hrun =>
      have hchecked := storeNewMessage_checked hrun
      rw [hchecked.content]
      exact shallow_of_single (not_bundle_of_checked hchecked)
    | forwarded hop hsources hcontent => exact forwardContents_shallow hw.stored hsources hcontent
  obtain ⟨new, he, hkinds⟩ := (Op.kindsMatch h).log
  obtain ⟨new', he', hversions⟩ := Op.versions ht h
  obtain rfl := List.append_cancel_left (he.symm.trans he')
  refine ⟨hstored, fun e hmem m hm => ?_⟩
  rw [he] at hmem
  rcases List.mem_append.mp hmem with hold | hnew
  · exact hw.told e hold m hm
  · obtain ⟨c, i, hat⟩ := hversions.stored e hnew m (hkinds e hnew ▸ hm)
    exact hstored c m (Store.mem_of_messageAt hat)

/-- **Flat bundles.** -/
theorem contents_shallow (hu : Function.Injective env.uuid) (h : (service env).Reachable w) :
    w.Shallow := by
  have hinductive : (service env).Inductive fun w => Timelines env w ∧ w.Shallow :=
    { init := fun w hw => by
        refine ⟨(timelines_inductive hu).init w hw, ?_⟩
        subst hw
        refine ⟨fun c m hm => ?_, fun e he => nomatch he⟩
        obtain ⟨i, hi⟩ := Store.messageAt_of_mem hm
        exact absurd hi not_messageAt_init
      step := fun w op w' hw hs =>
        ⟨(timelines_inductive hu).step w op w' hw.1 hs, hw.2.step hw.1 hs⟩ }
  exact (hinductive.reachable h).2

end

/-! ## What is written can be read -/

section
variable {chrono : Chrono}

@[simp] theorem fits_uuid (u : Uuid) : (jsonUuid u).fits = true := by simp [jsonUuid, Json.fits]

@[simp] theorem fits_time (t : DateTime) : (jsonTime chrono t).fits = true := by
  simp [jsonTime, Json.fits]

@[simp] theorem fits_string (s : String) : (Json.string s).fits = true := by simp [Json.fits]

theorem fits_nat {n : Nat} (h : n < 2 ^ 64) : (jsonNat n).fits = true := by
  simp only [jsonNat, Json.fits, Json.fits64, Bool.and_eq_true, decide_eq_true_eq]
  omega

theorem fits_option {α : Type} {f : α → Json} {o : Option α} (h : ∀ a ∈ o, (f a).fits = true) :
    (jsonOption f o).fits = true := by
  cases o with
  | none => simp [jsonOption, Json.fits]
  | some a => exact h a rfl

theorem fitsItems_iff {items : List Json} :
    Json.fitsItems items = true ↔ ∀ j ∈ items, j.fits = true := by
  induction items with
  | nil => simp [Json.fitsItems]
  | cons j items ih => rw [Json.fitsItems, Bool.and_eq_true, ih, List.forall_mem_cons]

@[simp] theorem fits_uuids (ids : List Uuid) : (jsonUuids ids).fits = true := by
  refine fitsItems_iff.mpr fun j hj => ?_
  obtain ⟨u, -, rfl⟩ := List.mem_map.mp hj
  exact fits_uuid u

@[simp] theorem fits_optionUuid (o : Option Uuid) : (jsonOption jsonUuid o).fits = true :=
  fits_option fun u _ => fits_uuid u

@[simp] theorem fits_optionText (o : Option String) : (jsonOption Json.string o).fits = true :=
  fits_option fun s _ => fits_string s

theorem signal_readable {signal : CallSignal} (h : signal.Typed) :
    signal.json.fits = true ∧ signal.json.depth ≤ 2 := by
  cases signal with
  | iceCandidate candidate sdpMid sdpMlineIndex =>
    have hindex : (jsonOption jsonNat sdpMlineIndex).fits = true :=
      fits_option fun n hn => fits_nat (Nat.lt_trans (h n hn) (by decide))
    simp [CallSignal.json, Json.fits, Json.fitsFields, Json.depth, Json.depthFields, hindex]
  | participants userIds =>
    have hdepth := depth_uuids userIds
    simp [CallSignal.json, Json.fits, Json.fitsFields, Json.depth, Json.depthFields]
    omega
  | _ => simp [CallSignal.json, Json.fits, Json.fitsFields, Json.depth, Json.depthFields]

theorem serverFrame_readable {frame : ServerFrame} {correlationId : Uuid} (h : frame.Typed chrono)
    (hshallow : ∀ e, frame = .event e → ∀ m, e.payload.version = some m →
      m.content.shallow = true) :
    Json.readable recursionLimit (frame.json chrono correlationId) = true := by
  rw [Json.readable_iff, recursionLimit]
  cases frame with
  | event e =>
    have hdepth : (e.payload.json chrono).depth ≤ 9 := depth_payload (hshallow e rfl)
    simp [ServerFrame.json, SyncEvent.json, Json.fits, Json.fitsFields, Json.depth,
      Json.depthFields, fits_nat h.cursor, h.payload]
    omega
  | callSignal d =>
    obtain ⟨hfits, hdepth⟩ := signal_readable h.2.2.2
    simp [ServerFrame.json, Json.fits, Json.fitsFields, Json.depth, Json.depthFields, hfits]
    omega
  | welcome protocolVersion userId serverTime latestCursor =>
    have hversion := fits_nat (Nat.lt_trans h.1 (by decide : (2 : Nat) ^ 16 < 2 ^ 64))
    simp [ServerFrame.json, Json.fits, Json.fitsFields, Json.depth, Json.depthFields, hversion,
      fits_nat h.2.2]
  | ack requestId a =>
    simp [ServerFrame.json, MessageAck.json, Json.fits, Json.fitsFields, Json.depth,
      Json.depthFields, fits_nat h.2.2.2]
  | _ =>
    simp [ServerFrame.json, Json.fits, Json.fitsFields, Json.depth, Json.depthFields]

end

/-! ## The frames of a run -/

/-- The socket of a task that may have been sent frames. -/
def Task.connection : Task → Option Socket
  | .subscribed socket | .serving socket | .handling socket _ => some socket
  | _ => none

/-- The events the socket was sent are in the log. -/
def Task.SentLogged (g : Gateway) (t : Task) : Prop :=
  ∀ socket, t.connection = some socket → ∀ e, ServerFrame.event e ∈ socket.outgoing →
    ∃ entry ∈ g.world.events, entry.event = e

section
variable {env : Env} {g g' : Gateway} {t t' : Task} {l : TaskStep}

/-- No frame is answered with an event. -/
theorem handleFrame_answers {e : SyncEvent} (userId : UserId) (now : DateTime)
    (frame : Option ClientFrame) :
    ServerFrame.event e ∉ (g.handleFrame env userId now frame).2 := by
  cases frame with
  | none => simp [Gateway.handleFrame, protocolError]
  | some frame =>
    cases frame <;> simp only [Gateway.handleFrame] <;>
      first
      | split <;> simp [protocolError]
      | simp

theorem forward_logged {α : Type} {socket : Socket} {entry : Option α} {isFor : α → Bool}
    {frame : α → ServerFrame} {e : SyncEvent}
    (h : ServerFrame.event e ∈ (socket.forward entry isFor frame).outgoing) :
    ServerFrame.event e ∈ socket.outgoing ∨ ∃ a, entry = some a ∧ frame a = .event e := by
  rcases List.mem_append.mp h with h | h
  · exact .inl h
  · obtain ⟨a, ha, hframe⟩ := Option.map_eq_some_iff.mp (Option.mem_toList.mp h)
    exact .inr ⟨a, (Option.filter_eq_some_iff.mp ha).1, hframe⟩

theorem Task.SentLogged.of_none {t : Task} (h : t.connection = none) : t.SentLogged g := by
  intro socket hs
  rw [h] at hs
  cases hs

/-- The socket has been sent frames that are no events. -/
theorem Task.SentLogged.sending {t t' : Task} {socket : Socket} {frames : List ServerFrame}
    (ht : t.SentLogged g) (hold : t.connection = some socket)
    (hnew : t'.connection = some (socket.sending frames))
    (hframes : ∀ e, ServerFrame.event e ∉ frames) : t'.SentLogged g := by
  intro socket' hs e he
  obtain rfl := Option.some.inj (hnew.symm.trans hs)
  exact ht socket hold e ((List.mem_append.mp he).resolve_right (hframes e))

/-- What a step sends of the log. -/
theorem sentLogged_of_step (h : t.step env g l = some (g', t')) (ht : t.SentLogged g) :
    t'.SentLogged g := by
  unfold Task.step at h
  split at h
  case h_1 =>
    cases h
    exact ht
  case h_2 =>
    split at h <;> cases h
    exact ht
  case h_14 =>
    cases h
    intro socket hs e he
    cases hs
    cases he
  case h_15 =>
    cases h
    exact ht.sending rfl rfl (by simp)
  case h_17 socket =>
    obtain ⟨r, hr, heq⟩ := Option.map_eq_some_iff.mp h
    cases heq
    intro socket' hs e he
    cases hs
    rcases forward_logged he with he | ⟨entry, hentry, hframe⟩
    · exact ht socket rfl e he
    · have hmem : entry ∈ g.world.events.take g.sent := by
        unfold recv at hr
        split at hr
        · cases hr
          cases hentry
        · obtain ⟨a, ha, rfl⟩ := Option.map_eq_some_iff.mp hr
          cases hentry
          exact List.mem_of_getElem? ha
      exact ⟨entry, List.mem_of_mem_take hmem, ServerFrame.event.inj hframe⟩
  case h_18 socket =>
    obtain ⟨r, -, heq⟩ := Option.map_eq_some_iff.mp h
    cases heq
    intro socket' hs e he
    cases hs
    rcases forward_logged he with he | ⟨_, -, hframe⟩
    · exact ht socket rfl e he
    · cases hframe
  case h_19 socket =>
    obtain ⟨r, -, heq⟩ := Option.map_eq_some_iff.mp h
    cases heq
    intro socket' hs e he
    cases hs
    rcases forward_logged he with he | ⟨_, -, hframe⟩
    · exact ht socket rfl e he
    · cases hframe
  case h_20 =>
    cases h
    exact ht
  case h_21 =>
    cases h
    exact ht.sending rfl rfl (by simp [protocolError])
  case h_23 socket frame now =>
    cases h
    exact ht.sending rfl rfl fun e => handleFrame_answers socket.userId now frame
  case h_4 =>
    obtain ⟨task, htask, heq⟩ := Option.map_eq_some_iff.mp h
    cases heq
    unfold Gateway.authenticate at htask
    split at htask
    · split at htask <;> cases htask
      exact .of_none rfl
    · cases htask
  case h_8 =>
    unfold Gateway.upgrade at h
    split at h
    · cases h
      exact .of_none rfl
    · split at h <;> cases h <;> exact .of_none rfl
  case h_31 => cases h
  -- the other tasks have no socket
  all_goals first
    | (cases h; exact .of_none rfl)
    | (split at h <;> cases h <;> exact .of_none rfl)

theorem Advances.reachable (h : Advances env g t l g' t') (hw : (service env).Reachable g.world) :
    (service env).Reachable g'.world := by
  cases h with
  | quiet hworld => rwa [hworld]
  | ran hrun => exact hw.step hrun
  | authenticated | issued | upgraded | expired | due => exact hw

theorem Advances.log_grows (h : Advances env g t l g' t') :
    ∃ new, g'.world.events = g.world.events ++ new := by
  cases h with
  | quiet hworld => exact ⟨[], by rw [hworld, List.append_nil]⟩
  | ran hrun =>
    obtain ⟨new, he, -⟩ := (Op.kindsMatch hrun).log
    exact ⟨new, he⟩
  | authenticated | issued | upgraded | expired | due => exact ⟨[], (List.append_nil _).symm⟩

theorem Task.SentLogged.mono (ht : t.SentLogged g) {new : List UserEvent}
    (h : g'.world.events = g.world.events ++ new) : t.SentLogged g' := by
  intro socket hs e he
  obtain ⟨entry, hentry, hevent⟩ := ht socket hs e he
  exact ⟨entry, h ▸ List.mem_append_left _ hentry, hevent⟩

end

/-- In every run the sockets are sent what is logged. -/
theorem sentLogged_inductive (ι : Type) [DecidableEq ι] (env : Env) :
    ((gateway ι env).lts.restrict fun _ _ => True).Inductive
      (Threads.Holds (fun g => (service env).Reachable g.world) Task.SentLogged
        fun _ _ => True) := by
  refine Threads.holds_inductive (fun x hx => ?_) (fun _ _ h => h) ?_ ?_
  · obtain ⟨⟨clock, hg⟩, hidle⟩ := hx
    refine ⟨?_, fun i => ?_, fun _ _ _ => trivial⟩
    · rw [hg]
      exact LTS.Reachable.init rfl
    · rw [hidle i]
      exact .of_none rfl
  · intro x i l g' t' _ hI hL hstep
    have hadvances := advances_of_step hstep
    obtain ⟨new, hnew⟩ := hadvances.log_grows
    exact ⟨hadvances.reachable hI, (sentLogged_of_step hstep hL).mono hnew⟩
  · intro x i l g' t' j _ _ _ _ hLj _ hstep
    obtain ⟨new, hnew⟩ := (advances_of_step hstep).log_grows
    exact ⟨hLj.mono hnew, trivial⟩

/-! ## The texts -/

section
variable {reader : TextReader} {chrono : Chrono}

theorem payload_message (payload : EventPayload) :
    ((payload.json chrono).fields?.getD []).find? (·.1 == "message") =
      payload.version.map fun m => ("message", m.json chrono) := by
  cases payload <;> simp [EventPayload.json, Json.fields?]

/-- The message the client takes from an event is the one that was put in it. -/
theorem received_message (hreads : reader.Reads chrono) {e : SyncEvent} (h : e.Typed chrono)
    (hshallow : ∀ m, e.payload.version = some m → m.content.shallow = true) :
    ReceivedEvent.message? reader
      ⟨e.id, e.cursor, e.kind, e.payload.json chrono, e.createdAt⟩ = e.message? := by
  rw [SyncEvent.message?_eq_version]
  unfold ReceivedEvent.message? SyncEvent.version
  dsimp only
  rw [payload_message]
  cases hversion : e.payload.version with
  | none => cases e.kind <;> rfl
  | some m =>
    have hread : Message.ofJson reader (m.json chrono) = some m :=
      message_read hreads (h.message m hversion)
        (Nat.le_trans (depth_content (hshallow m hversion)) (by decide))
    cases e.kind <;> first | exact hread | rfl

end

/-- **What the server sends.** In every run of the server a frame on a socket is read back from its
text, and of an event the client takes the message that was put in it. -/
theorem server_frames_read {ι : Type} [DecidableEq ι] (env : Env)
    (hu : Function.Injective env.uuid) (reader : TextReader) (chrono : Chrono)
    (hreads : reader.Reads chrono) {x : Gateway × (ι → Task)}
    (hx : (gateway ι env).lts.Reachable x) {i : ι} {socket : Socket}
    (hs : (x.2 i).connection = some socket) {frame : ServerFrame} (hframe : frame ∈ socket.outgoing)
    (htyped : frame.Typed chrono) {correlationId : Uuid} (hid : IsUuid correlationId) :
    ReceivedFrame.parse reader (frame.text chrono correlationId) =
      some (frame.received chrono correlationId) ∧
    ∀ e, frame = .event e → ReceivedEvent.message? reader
      ⟨e.id, e.cursor, e.kind, e.payload.json chrono, e.createdAt⟩ = e.message? := by
  have hholds := (sentLogged_inductive ι env).reachable (hx.restrict fun _ _ => trivial)
  have hshallow : ∀ e, frame = .event e → ∀ m, e.payload.version = some m →
      m.content.shallow = true := by
    rintro e rfl m hm
    obtain ⟨entry, hentry, rfl⟩ := hholds.thread i socket hs e hframe
    exact (contents_shallow hu hholds.shared).told entry hentry m hm
  constructor
  · rw [ReceivedFrame.parse, ServerFrame.text,
      Json.read_write (serverFrame_readable htyped hshallow)]
    exact serverFrame_read hreads htyped hid
  · rintro e rfl
    exact received_message hreads htyped (hshallow e rfl)

/-! ## The frames of a client -/

section
variable {chrono : Chrono}

theorem attachment_fits {a : Attachment} (h : a.Typed) : a.json.fits = true := by
  simp [Attachment.json, Json.fits, Json.fitsFields, fits_nat h.2]

mutual

theorem content_fits : ∀ content : MessageContent, content.Typed →
    (content.json chrono).fits = true
  | .text _, _ | .system _, _ => by
    simp [MessageContent.json, contentJson, Json.fits, Json.fitsFields]
  | .image attachment, h | .file attachment, h | .sticker attachment _, h => by
    simp [MessageContent.json, contentJson, Json.fits, Json.fitsFields, attachment_fits h]
  | .audio attachment durationMs, h => by
    simp [MessageContent.json, contentJson, Json.fits, Json.fitsFields, attachment_fits h.1,
      fits_nat (Nat.lt_trans h.2 (by decide))]
  | .forwardBundle title messages, h => by
    simp [MessageContent.json, contentJson, Json.fits, Json.fitsFields, forwarded_fits messages h]

theorem forwarded_fits : ∀ messages : List ForwardedMessage, forwardedTyped messages →
    Json.fitsItems (jsonForwarded chrono messages) = true
  | [], _ => rfl
  | m :: messages, h => by
    simp [jsonForwarded, Json.fitsItems, Json.fits, Json.fitsFields, content_fits m.content h.2.1,
      forwarded_fits messages h.2.2]

end

theorem clientFrame_fits {frame : ClientFrame} (h : frame.Typed) :
    (frame.json chrono).fits = true := by
  cases frame with
  | hello protocolVersion clientVersion accessToken lastCursor =>
    have hversion := fits_nat (Nat.lt_trans h.1 (by decide : (2 : Nat) ^ 16 < 2 ^ 64))
    simp [ClientFrame.json, Json.fits, Json.fitsFields, hversion, fits_nat h.2]
  | sendMessage requestId conversationId message =>
    have hexpires : (jsonOption jsonNat message.expiresInSeconds).fits = true :=
      fits_option fun n hn => fits_nat (Nat.lt_trans (h.2.2.expiresInSeconds n hn) (by decide))
    simp [ClientFrame.json, SendMessageRequest.json, Json.fits, Json.fitsFields, hexpires,
      content_fits message.content h.2.2.content]
  | markRead requestId conversationId throughSequence =>
    simp [ClientFrame.json, Json.fits, Json.fitsFields, fits_nat h.2.2]
  | callSignal conversationId callId target signal =>
    simp [ClientFrame.json, Json.fits, Json.fitsFields, (signal_readable h.2.2.2).1]
  | _ => simp [ClientFrame.json, Json.fits, Json.fitsFields]

theorem shallow_of_validate {content : MessageContent} (h : content.validate = .ok ()) :
    content.shallow = true := by
  cases content with
  | forwardBundle title messages =>
    change (if MessageContent.invalidBundle title messages then Except.error _ else Except.ok ()) =
      .ok () at h
    split at h
    · cases h
    rename_i hvalid
    refine List.all_eq_true.mpr fun m hm => ?_
    rw [Bool.not_eq_true']
    refine Bool.eq_false_iff.mpr fun hbundle => hvalid ?_
    unfold MessageContent.invalidBundle
    rw [Bool.or_eq_true]
    exact .inr (List.any_eq_true.mpr ⟨m, hm, by rw [hbundle, Bool.or_true]⟩)
  | _ => rfl

theorem clientFrame_depth {frame : ClientFrame} (h : frame.Typed)
    (hvalid : ∀ requestId conversationId message,
      frame = .sendMessage requestId conversationId message →
      message.content.validate = .ok ()) : (frame.json chrono).depth ≤ recursionLimit := by
  unfold recursionLimit
  cases frame with
  | sendMessage requestId conversationId message =>
    have hcontent : (message.content.json chrono).depth ≤ 7 := depth_content
      (shallow_of_validate (hvalid requestId conversationId message rfl))
    have hmentions := depth_uuids message.mentions
    simp [ClientFrame.json, SendMessageRequest.json, Json.depth, Json.depthFields]
    omega
  | callSignal conversationId callId target signal =>
    have hsignal := (signal_readable h.2.2.2).2
    simp [ClientFrame.json, Json.depth, Json.depthFields]
    omega
  | _ => simp [ClientFrame.json, Json.depth, Json.depthFields]

end

/-- Beyond the years of four digits, a sign and the count of nanoseconds. -/
def farText : Int → List Char
  | .ofNat n => '+' :: Nat.toDigits 10 n
  | .negSucc n => '-' :: Nat.toDigits 10 n

/-- A time with a `Z` for the offset. -/
def utcText (t : DateTime) : String :=
  if t.FourDigits then
    let text := TimeText.text t.sinceZero.toNat
    String.ofList (text.take (text.length - 6) ++ ['Z'])
  else String.ofList (farText t)

def Chrono.utc : Chrono where
  dateTime := utcText
  date d := utcText (Duration.days d)

example : Chrono.utc.dateTime 951827696120000000 = "2000-02-29T12:34:56.120Z" := by
  decide +kernel

theorem text_offset (n : Nat) : TimeText.text n =
    (TimeText.text n).take ((TimeText.text n).length - 6) ++ "+00:00".toList := by
  obtain ⟨body, hbody⟩ : ∃ body, TimeText.text n = body ++ "+00:00".toList :=
    ⟨TimeText.dateText (n / TimeText.nanosOfSecond / TimeText.secondsOfDay) ++ ('T' ::
      TimeText.clockText (n / TimeText.nanosOfSecond % TimeText.secondsOfDay) ++
      TimeText.fractionText (n % TimeText.nanosOfSecond)), by simp [TimeText.text]⟩
  have hlen : (TimeText.text n).length - 6 = body.length := by
    rw [hbody, List.length_append]
    exact Nat.add_sub_cancel ..
  rw [hlen]
  conv_rhs => rw [hbody, List.take_left]
  exact hbody

theorem not_mem_farText (t : Int) : 'Z' ∉ farText t := by
  have hdigits : ∀ n, 'Z' ∉ Nat.toDigits 10 n := fun n hn =>
    absurd (Nat.isDigit_of_mem_toDigits (by decide) (by decide) hn) (by decide)
  intro h
  cases t with
  | ofNat n => exact (List.mem_cons.mp h).elim (by decide) (hdigits n)
  | negSucc n => exact (List.mem_cons.mp h).elim (by decide) (hdigits n)

theorem farText_injective : Function.Injective farText := by
  have hdigits : ∀ m n, Nat.toDigits 10 m = Nat.toDigits 10 n → m = n := fun m n h => by
    rw [← @Nat.ofDigitChars_ten_toDigits m, h, Nat.ofDigitChars_ten_toDigits]
  intro s t h
  cases s <;> cases t <;> obtain ⟨hsign, h⟩ := List.cons.inj h
  · rw [hdigits _ _ h]
  · cases hsign
  · cases hsign
  · rw [hdigits _ _ h]

theorem utcText_injective : Function.Injective utcText := by
  intro s t h
  unfold utcText at h
  split at h <;> split at h <;> replace h := String.ofList_injective h
  · rename_i hs ht
    have htext : TimeText.text s.sinceZero.toNat = TimeText.text t.sinceZero.toNat := by
      rw [text_offset s.sinceZero.toNat, (List.append_inj' h rfl).1, ← text_offset]
    have hrfc : toRfc3339 s = toRfc3339 t := congrArg String.ofList htext
    rcases lt_trichotomy s t with hlt | heq | hlt
    · exact absurd ((toRfc3339_lt hs ht).mpr hlt) (hrfc ▸ String.lt_irrefl _)
    · exact heq
    · exact absurd ((toRfc3339_lt ht hs).mpr hlt) (hrfc ▸ String.lt_irrefl _)
  · exact absurd (h ▸ List.mem_append_right _ List.mem_cons_self) (not_mem_farText t)
  · exact absurd (h ▸ List.mem_append_right _ List.mem_cons_self) (not_mem_farText s)
  · exact farText_injective h

/-- The reader that takes what is printed, and nothing else. -/
noncomputable def TextReader.utc : TextReader where
  uuid s := by
    classical exact if h : ∃ u < 2 ^ 128, Uuid.toString u = s then some h.choose else none
  dateTime s := Function.partialInv utcText s

theorem utc_reads : TextReader.utc.Reads Chrono.utc where
  uuid u hu := by
    have h : ∃ v < 2 ^ 128, Uuid.toString v = Uuid.toString u := ⟨u, hu, rfl⟩
    have hchoose := Uuid.toString_inj h.choose_spec.1 hu h.choose_spec.2
    simp only [TextReader.utc, dif_pos h, hchoose]
  dateTime t := Function.partialInv_left utcText_injective t

/-- The event of a text to nobody in particular, with small numbers. -/
def ServerFrame.isSmallText : ServerFrame → Bool
  | .event ⟨id, cursor, .messageCreated, .message m, _⟩ =>
    [id, cursor, m.id, m.clientMessageId, m.conversationId, m.senderId].all (decide <| · < 2 ^ 64) &&
      m.sequence.all (decide <| · < 2 ^ 64) && m.content.isText && m.replyTo.isNone &&
      m.mentions.isEmpty
  | _ => false

theorem typed_of_smallText {frame : ServerFrame} (h : frame.isSmallText = true) :
    frame.Typed Chrono.utc ∧ ∃ e m, frame = .event e ∧ e.message? = some m := by
  unfold ServerFrame.isSmallText at h
  split at h
  case h_2 => cases h
  rename_i id cursor m createdAt
  simp only [Bool.and_eq_true, List.all_cons, List.all_nil, and_true, decide_eq_true_eq] at h
  obtain ⟨⟨⟨⟨⟨hid, hcursor, hm, hclient, hc, hsender⟩, hsequence⟩, htext⟩, hreply⟩, hmentions⟩ := h
  have huuid : ∀ {u : Nat}, u < 2 ^ 64 → IsUuid u := fun h => Nat.lt_trans h (by decide)
  have hsequence : ∀ n ∈ m.sequence, n < 2 ^ 64 := fun n hn => by
    rw [Option.mem_def] at hn
    rw [hn] at hsequence
    exact of_decide_eq_true hsequence
  rw [Option.isNone_iff_eq_none] at hreply
  rw [List.isEmpty_iff] at hmentions
  obtain ⟨t, htext⟩ : ∃ t, m.content = .text t := by
    cases hcontent : m.content <;> rw [hcontent] at htext <;> first | exact ⟨_, rfl⟩ | cases htext
  have hfits : (jsonOption jsonNat m.sequence).fits = true :=
    fits_option fun n hn => fits_nat (hsequence n hn)
  have htimes : ∀ o, (jsonOption (jsonTime Chrono.utc) o).fits = true := fun o =>
    fits_option fun t _ => fits_time t
  refine ⟨⟨huuid hid, hcursor, ?_, fun m' hm' => ?_⟩, _, m, rfl, rfl⟩
  · simp [EventPayload.json, Message.json, MessageContent.json, contentJson, htext, Json.fits,
      Json.fitsFields, hfits, htimes]
  · cases hm'
    exact
      { id := huuid hm
        clientMessageId := huuid hclient
        conversationId := huuid hc
        senderId := huuid hsender
        sequence := hsequence
        content := by
          rw [htext]
          exact trivial
        replyTo := by simp [hreply]
        mentions := by simp [hmentions] }

/-- Alice sends Bob a text on a socket, and is sent its event. -/
theorem server_frames_read_text : ∃ x socket e m,
    (gateway Bool Env.brief).lts.Reachable x ∧ (x.2 true).connection = some socket ∧
    ServerFrame.event e ∈ socket.outgoing ∧ e.message? = some m ∧
    ReceivedFrame.parse .utc ((ServerFrame.event e).text .utc 0) =
      some (.event ⟨e.id, e.cursor, e.kind, e.payload.json .utc, e.createdAt⟩) ∧
    ReceivedEvent.message? .utc
      ⟨e.id, e.cursor, e.kind, e.payload.json .utc, e.createdAt⟩ = some m := by
  let token (n : Nat) := Text.toHex (Env.brief.randomBytes n 32)
  obtain ⟨x, hx, hp⟩ := gateway_reaches Env.brief
    ([(false, .transaction (.register alice 0)), (false, .transaction (.register bob 0)),
      (false, .authenticate (token 1) (.call (.sendFriendRequest 1 "bob" "" 0)) 0), (false, .call),
      (false, .authenticate (token 4) (.call (.decideFriendRequest 4 7 .accept 0)) 0),
      (false, .call), (true, .authenticate (token 1) .ticket 0), (true, .issueTicket 50),
      (true, .upgrade 50), (true, .count), (true, .presence 0), (true, .subscribe),
      (true, .welcome 0), (true, .frame (some (.sendMessage 60 9 (.text 100 "hi")))),
      (true, .handle 0)] ++ List.replicate 5 (false, .publish) ++
      List.replicate 5 (true, .receiveEvent))
    (fun x => (x.2 true).connection.any fun socket => socket.outgoing.any (·.isSmallText))
    (by decide +kernel)
  obtain ⟨socket, hsocket, hsmall⟩ := (Option.any_eq_true ..).mp hp
  obtain ⟨frame, hframe, hsmall⟩ := List.any_eq_true.mp hsmall
  obtain ⟨htyped, e, m, rfl, hm⟩ := typed_of_smallText hsmall
  obtain ⟨hparse, hmessage⟩ := server_frames_read Env.brief Env.numbered_injective .utc .utc
    utc_reads hx hsocket hframe htyped (show (0 : Nat) < 2 ^ 128 by decide)
  exact ⟨x, socket, e, m, hx, hsocket, hframe, hm, hparse, (hmessage e rfl).trans hm⟩

end IamRust
