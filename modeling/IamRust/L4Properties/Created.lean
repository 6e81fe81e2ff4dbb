import IamRust.L4Properties.Positions
import IamRust.L4Properties.Replay

/-!
# Messages gained

The events of created messages are those of the messages the timelines gain,
and a member is told of all of them.

* `gains_run`: over a run, up to recalls.
* `unreadCount_run`: of a user who reads nothing meanwhile, the unread count
  grows by the messages of others among them.
-/
namespace IamRust

open Core

/-- What a recall leaves as it is: the sender, and the place. -/
def Message.place (m : Message) : UserId × Option Nat := (m.senderId, m.sequence)

/-- The messages of a conversation that events tell are created. -/
def createdIn (c : ConversationId) (events : List UserEvent) : List Message :=
  (events.filterMap (·.event.created)).filter (·.conversationId == c)

/-- The messages the timelines gain are those the events appended tell are created. -/
def Gains (w w' : World) : Prop :=
  ∃ new, w'.events = w.events ++ new ∧ ∀ c, (w'.timeline c).map Message.place =
    (w.timeline c).map Message.place ++ (createdIn c new).map Message.place

theorem createdIn_append (c : ConversationId) (l l' : List UserEvent) :
    createdIn c (l ++ l') = createdIn c l ++ createdIn c l' := by
  simp [createdIn]

theorem World.appended_eq {w w' : World} {new : List UserEvent} (h : w'.events = w.events ++ new) :
    w.appended w' = new := by
  unfold World.appended
  rw [h, List.drop_left]

instance : IsPreorder World Gains where
  refl w := ⟨[], by simp, fun c => by simp [createdIn]⟩
  trans w w₁ w₂ h₁ h₂ := by
    obtain ⟨new₁, he₁, hgain₁⟩ := h₁
    obtain ⟨new₂, he₂, hgain₂⟩ := h₂
    refine ⟨new₁ ++ new₂, by rw [he₂, he₁, List.append_assoc], fun c => ?_⟩
    rw [hgain₂, hgain₁, createdIn_append, List.map_append, List.append_assoc]

theorem Store.timeline_eq {s s' : Store} (h : s'.messages = s.messages) (c : ConversationId) :
    s'.timeline c = s.timeline c := by
  unfold Store.timeline
  rw [h]

instance : Telling Gains where
  same {w w'} hm he := by
    have he : w'.events = w.events := he
    exact ⟨[], by simpa using he, fun c => by rw [Store.timeline_eq hm c]; simp [createdIn]⟩
  event {w w' e} hm he hp := ⟨[e], he, fun c => by
    rw [Store.timeline_eq hm c]
    simp [createdIn, SyncEvent.created_eq_none hp]⟩
  posted {env w m w' e} hp he hcreated := ⟨[e], he, fun c => by
    rw [hp.timeline c]
    by_cases hc : c = m.conversationId
    · simp [createdIn, hcreated, hc]
    · simp [createdIn, hcreated, hc, Ne.symm hc]⟩

section
variable {env : Env} {w w' : World} {op : Op} {u : UserId} {c : ConversationId}

theorem recallIn_place (messageId : MessageId) (now : DateTime) (l : List Message) :
    (recallIn messageId now l).map Message.place = l.map Message.place := by
  induction l with
  | nil => rfl
  | cons m ms ih =>
    unfold recallIn
    split
    · rfl
    · rw [List.map_cons, List.map_cons, ih]

/-- **Step.** -/
theorem Op.gains (h : (op.run env).Runs w () w') : Gains w w' := by
  by_cases hop : ∃ actor messageId now, op = .recallMessage actor messageId now
  · obtain ⟨actor, messageId, now, rfl⟩ := hop
    obtain ⟨m, hr⟩ := Tx.runs_void.mp h
    obtain ⟨original, -, -, hmessages, e, he, -, hcreated⟩ := recallMessage_effect hr
    refine ⟨[e], he, fun c => ?_⟩
    have hnone : createdIn c [e] = [] := by simp [createdIn, hcreated]
    rw [hnone, List.map_nil, List.append_nil]
    unfold Store.timeline
    rw [hmessages, Map.get_modify]
    split
    · cases w.messages.get c with
      | none => rfl
      | some l => exact recallIn_place messageId now l
    · rfl
  · exact Op.telling (fun actor messageId now he => hop ⟨actor, messageId, now, he⟩) h

/-- **Run.** -/
theorem gains_run {ops : List Op} (h : (service env).Run w ops w') : Gains w w' :=
  h.relates (refl (r := Gains)) (fun _ _ _ => IsTrans.trans _ _ _) fun _ _ _ hs => Op.gains hs

/-! ## Who is told -/

/-- The events appended tell the user of every message created in the conversation. -/
def TellsAll (u : UserId) (c : ConversationId) (w w' : World) : Prop :=
  ∀ e ∈ w.appended w', ∀ m, e.event.created = some m → m.conversationId = c →
    e.addressedTo u = true

/-- The created messages are told to the members. -/
theorem Op.tellsAll (hn : Named w) (h : (op.run env).Runs w () w')
    (hread : w'.readable u c = true) : TellsAll u c w w' := by
  intro e he m hm hc
  have hversion := SyncEvent.payload_version (SyncEvent.version_of_created hm)
  have hmembers := ((Op.announced hn h).appended e he).version_members hversion
  rw [hc] at hmembers
  simpa [UserEvent.addressedTo, hmembers] using Store.mem_audience.mpr hread

/-- **Run.** A user who is a member all the time is told of all of them. -/
theorem tellsAll_run {ops : List Op} (hw : (service env).Reachable w)
    (h : ((service env).restrict fun w _ => w.readable u c = true).Run w ops w')
    (hread : w'.readable u c = true) : TellsAll u c w w' := by
  induction h with
  | nil w =>
    intro e he
    simp [World.appended] at he
  | @cons w w₁ w' op ops hs hrest ih =>
    have hw₁ := hw.step hs.2
    have hread₁ : w₁.readable u c = true := by
      cases hrest with
      | nil => exact hread
      | cons hs₁ _ => exact hs₁.1
    obtain ⟨new₁, he₁, -⟩ := Op.gains hs.2
    obtain ⟨new₂, he₂, -⟩ := gains_run hrest.of_restrict
    have hstep := Op.tellsAll ((named_inductive env).reachable hw) hs.2 hread₁
    have hrest := ih hw₁ hread
    unfold TellsAll at *
    rw [World.appended_eq he₁] at hstep
    rw [World.appended_eq he₂] at hrest
    rw [World.appended_eq (by rw [he₂, he₁, List.append_assoc])]
    exact List.forall_mem_append.mpr ⟨hstep, hrest⟩

/-- What the user is told is all there is. -/
theorem TellsAll.createdIn (h : TellsAll u c w w') :
    IamRust.createdIn c ((w.appended w').filter (·.addressedTo u)) =
      IamRust.createdIn c (w.appended w') := by
  unfold TellsAll at h
  generalize w.appended w' = l at h
  induction l with
  | nil => rfl
  | cons e l ih =>
    obtain ⟨he, hl⟩ := List.forall_mem_cons.mp h
    unfold IamRust.createdIn at ih ⊢
    rw [List.filter_cons]
    cases hm : e.event.created with
    | none => split <;> simp [hm, ih hl]
    | some m =>
      by_cases hc : m.conversationId = c
      · rw [if_pos (he m hm hc)]
        simp [hm, hc, ih hl]
      · split <;> simp [hm, hc, ih hl]

/-! ## Unread messages -/

/-- The message is unread for a user who has read that far. -/
def Message.unreadBy (u : UserId) (lastRead : Nat) (m : Message) : Bool :=
  m.senderId ≠ u && m.sequence.any fun sequence => decide (lastRead < sequence)

/-- The count of `conversation_states`. -/
def Store.unreadCount (s : Store) (u : UserId) (c : ConversationId) : Nat :=
  (s.timeline c).countP (·.unreadBy u (s.lastRead u c))

theorem conversationStates_unread {s : Store} {state : ConversationState}
    (h : state ∈ conversationStates s u) :
    state.unreadCount = s.unreadCount u state.conversationId := by
  obtain ⟨c, -, rfl⟩ := List.mem_map.mp h
  rfl

/-- **Run.** With nothing read meanwhile the count grows by the created messages of others. -/
theorem unreadCount_run {ops : List Op} (hu : Function.Injective env.uuid)
    (hw : (service env).Reachable w) (h : (service env).Run w ops w')
    (hread : w'.lastRead u c = w.lastRead u c) (hlen : (w'.timeline c).length ≤ u64Max) :
    w'.unreadCount u c =
      w.unreadCount u c + (createdIn c (w.appended w')).countP (·.senderId ≠ u) := by
  obtain ⟨new, he, hgain⟩ := gains_run h
  have hgain := hgain c
  rw [World.appended_eq he]
  have hlength : (w'.timeline c).length = (w.timeline c).length + (createdIn c new).length := by
    simpa using congrArg List.length hgain
  have hbound := (((measured_inductive hu).reachable hw).2.2.2.bounded u c (by omega)).1
  have ht := reachable_timelines hu (hw.run h)
  unfold Store.unreadCount
  rw [hread]
  generalize w.lastRead u c = r at hbound
  have hcount : ∀ l : List Message, l.countP (·.unreadBy u r) = (l.map Message.place).countP
      fun p => p.1 ≠ u && p.2.any fun sequence => decide (r < sequence) := fun l => by
    rw [List.countP_map]
    rfl
  rw [hcount, hgain, List.countP_append, ← hcount, ← hcount]
  congr 1
  -- what was gained stands behind everything that was read
  refine List.countP_congr fun m hm => ?_
  obtain ⟨j, hj, rfl⟩ := List.mem_iff_getElem.mp hm
  have hplace : ((w'.timeline c).map Message.place)[(w.timeline c).length + j]? =
      some (createdIn c new)[j].place := by
    rw [hgain, List.getElem?_append_right (by simp)]
    simp [hj]
  rw [List.getElem?_map, Option.map_eq_some_iff] at hplace
  obtain ⟨m', hm', hplace⟩ := hplace
  have hsequence := ht.sequences hm' (by omega)
  have hm : (createdIn c new)[j].sequence = some ((w.timeline c).length + j + 1) := by
    rw [← hsequence]
    exact (congrArg Prod.snd hplace).symm
  simp only [Message.unreadBy, hm, Option.any_some, Bool.and_eq_true, decide_eq_true_eq]
  exact and_iff_left (by omega)

end

end IamRust
