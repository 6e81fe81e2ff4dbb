import IamRust.L4Properties.Announcements
import IamRust.L4Properties.Deletion
import IamRust.L4Properties.Suspension

/-!
# Who is told, and of what

Two directions. Everyone whose conversations change is told, unless they leave
or are removed (`membership_told`). What an event carries its recipients may
see, unless a join request is decided in front of plain members
(`events_entitled`).
-/
namespace IamRust

open Core

/-! ## Appended events -/

/-- The log grows. -/
def Grows : World → World → Prop := Logs fun _ _ => True

/-- An event of the step goes to exactly these recipients and carries this payload. -/
def Tells (w w' : World) (recipients : Finset UserId) (payload : EventPayload) : Prop :=
  ∃ e ∈ w.appended w', e.recipients = recipients ∧ e.event.payload = payload

section
variable {env : Env} {w w₁ w₂ w' : World} {now : DateTime}

instance : IsPreorder World Grows := inferInstanceAs (IsPreorder World (Logs _))

instance grows_ignores (f : Field) [Has f recordFields] : Ignores Grows f :=
  inferInstanceAs (Ignores (Logs _) f)

instance grows_logged : Logged env Grows where
  newUuid := logs_drawing.newUuid
  fillBytes := logs_drawing.fillBytes
  appendEvent _ _ _ _ := logs_event trivial

theorem grows_same (h : w'.events = w.events) : Grows w w' := logs_same h

/-- An event that is appended on the way. -/
theorem tells_event {recipients : List UserId} {kind : EventKind} {payload : EventPayload}
    {u : Unit} (hevent : (appendEvent env recipients kind payload now).Runs w₁ u w₂)
    (hbefore : Grows w w₁) (hafter : Grows w₂ w') :
    Tells w w' recipients.toFinset payload := by
  obtain ⟨new, hnew, -⟩ := hbefore
  obtain ⟨rest, hrest, -⟩ := hafter
  rw [appendEvent_runs.mp hevent] at hrest
  refine ⟨⟨recipients.toFinset,
    ⟨env.uuid w₁.nextUuid, saturatingSucc w₁.cursor, kind, payload, now⟩⟩, ?_, rfl, rfl⟩
  unfold World.appended
  rw [hrest]
  dsimp only
  rw [hnew, List.append_assoc, List.append_assoc, List.drop_left]
  exact List.mem_append_right _ List.mem_cons_self

/-! ## Membership -/

/-- Somebody is told of the step. -/
def Told (w w' : World) (u : UserId) : Prop := ∃ e ∈ w.appended w', u ∈ e.recipients

theorem Tells.told {recipients : Finset UserId} {payload : EventPayload}
    (h : Tells w w' recipients payload) {u : UserId} (hu : u ∈ recipients) : Told w w' u := by
  obtain ⟨e, he, rfl, -⟩ := h
  exact ⟨e, he, hu⟩

variable {actor peer u : UserId} {id : ConversationId}

theorem createDirect_told {c : Conversation}
    (h : (createDirect env actor peer now).Runs w c w')
    (hnone : findDirect w.toStore actor peer = none) (hu : u = actor ∨ u = peer) :
    Told w w' u := by
  unfold createDirect at h
  simp only [Tx.runs_get_bind, Tx.runs_failIf_bind, hnone, Option.isSome_none,
    Bool.false_eq_true, if_false, Tx.runs_bind (t := newUuid env), newUuid_runs,
    Tx.runs_ofExcept_bind] at h
  obtain ⟨-, _, _, ⟨rfl, rfl⟩, c, -, h⟩ := h
  obtain ⟨_, w₁, hstore, h⟩ := Tx.runs_bind.mp h
  obtain ⟨_, w₂, hloop, h⟩ := Tx.runs_bind.mp h
  obtain ⟨rfl, rfl⟩ := Tx.runs_pure.mp h
  have hbefore := Tx.Keeps.runs (R := Grows) hstore
  obtain ⟨_, w₃, hfirst, hloop⟩ := Tx.runs_bind.mp hloop
  obtain ⟨_, w₄, hsecond, hdone⟩ := Tx.runs_bind.mp hloop
  obtain ⟨-, rfl⟩ := Tx.runs_pure.mp hdone
  have hafter : Grows w₃ w' := Tx.Keeps.runs hsecond
  rcases hu with rfl | rfl
  · exact (tells_event hfirst hbefore hafter).told (by simp)
  · exact (tells_event hsecond (IsTrans.trans _ _ _ hbefore (Tx.Keeps.runs hfirst))
      (refl w')).told (by simp)

theorem createGroup_told {memberIds : List UserId} {name : String} {c : Conversation}
    (h : (createGroup env actor memberIds name now).Runs w c w')
    (hu : u = actor ∨ u ∈ memberIds) : Told w w' u := by
  unfold createGroup at h
  simp only [Tx.runs_get_bind, Tx.runs_failIf_bind, Tx.runs_bind (t := newUuid env), newUuid_runs,
    Tx.runs_ofExcept_bind, liftDomain_ok] at h
  obtain ⟨-, _, _, ⟨rfl, rfl⟩, _, _, ⟨rfl, rfl⟩, c, hnew, h⟩ := h
  obtain ⟨_, w₁, hstore, h⟩ := Tx.runs_bind.mp h
  obtain ⟨_, w₂, hevent, h⟩ := Tx.runs_bind.mp h
  obtain ⟨rfl, rfl⟩ := Tx.runs_pure.mp h
  have hbefore := Tx.Keeps.runs (R := Grows) hstore
  refine (tells_event hevent hbefore (refl w')).told ?_
  rw [mem_members]
  exact ((Conversation.group_ok hnew).2.2.2 u).mpr hu

theorem decideFriendRequest_told {requestId : FriendRequestId} {decision : FriendRequestDecision}
    {request r : FriendRequest}
    (h : (decideFriendRequest env actor requestId decision now).Runs w r w')
    (hget : w.friendRequests.get requestId = some request)
    (hu : u = request.senderId ∨ u = request.recipientId) : Told w w' u := by
  unfold decideFriendRequest at h
  simp only [Tx.runs_get_bind, Tx.runs_okOr_bind, Tx.runs_ofExcept_bind, update_bind_runs,
    liftDomain_ok, hget] at h
  obtain ⟨_, ⟨⟩, decided, hdecided, h⟩ := h
  obtain ⟨-, -, rfl⟩ := decide_ok hdecided
  obtain ⟨_, w₁, hwhen, h⟩ := Tx.runs_bind.mp h
  obtain ⟨_, w₂, hevent, h⟩ := Tx.runs_bind.mp h
  obtain ⟨rfl, rfl⟩ := Tx.runs_pure.mp h
  have hbefore := Tx.Keeps.runs (R := Grows) hwhen
  refine (tells_event hevent hbefore (refl w')).told ?_
  simpa [FriendRequest.become] using hu

theorem addGroupMembers_told {request : AddGroupMembersRequest} {r : Conversation}
    (h : (addGroupMembers env actor id request now).Runs w r w') (hu : u ∈ request.memberIds) :
    Told w w' u := by
  unfold addGroupMembers at h
  simp only [Tx.runs_failIf_bind, Tx.runs_get_bind, Tx.runs_okOr_bind, Tx.runs_ofExcept_bind] at h
  obtain ⟨-, c, hget, _, -, _, -, h⟩ := h
  obtain ⟨_, w₁, hloop, h⟩ := Tx.runs_bind.mp h
  obtain rfl : w = w₁ := Tx.Keeps.runs (R := Eq) hloop
  simp only [Tx.runs_failIf_bind, update_bind_runs] at h
  obtain ⟨-, h⟩ := h
  obtain ⟨_, w₂, hsettings, h⟩ := Tx.runs_bind.mp h
  obtain ⟨_, w₃, hnotice, h⟩ := Tx.runs_bind.mp h
  simp only [Tx.runs_get_bind, Tx.runs_okOr_bind] at h
  obtain ⟨c₃, hget₃, h⟩ := h
  obtain ⟨_, w₄, hevent, h⟩ := Tx.runs_bind.mp h
  obtain ⟨rfl, rfl⟩ := Tx.runs_pure.mp h
  have hsettled := Tx.Keeps.runs (R := Grows) hsettings
  have hbefore := IsTrans.trans _ _ _ hsettled (Tx.Keeps.runs hnotice)
  refine (tells_event hevent hbefore (refl w')).told ?_
  -- the recipients are read again behind the notice
  have hget₂ : w₂.conversations.get id =
      some (c.addMembers (c.newMembers request.memberIds) now) := by
    have hconv : w₂.conversations = _ := (Tx.Keeps.runs (R := Evolves [.conversationSettings])
      hsettings).same .conversations (by decide)
    rw [hconv]
    exact Map.get_insert_self ..
  have hafter : Touched w₂ w₃ := Tx.Keeps.runs (R := Touched) hnotice
  rw [← audience_of hget₃, hafter.audience, Store.mem_audience]
  exact readable_of hget₂ (canRead_addMembers.mpr (.inr hu))

theorem disbandGroup_told {x : Unit} (h : (disbandGroup env actor id now).Runs w x w')
    (hu : w.readable u id = true) : Told w w' u := by
  unfold disbandGroup at h
  simp only [Tx.runs_get_bind, Tx.runs_okOr_bind, Tx.runs_ofExcept_bind, update_bind_runs] at h
  obtain ⟨c, hget, _, -, _, -, hevent⟩ := h
  refine (tells_event hevent (grows_same rfl) (refl w')).told ?_
  rw [← audience_of hget, Store.mem_audience]
  exact hu

/-- A decision is told to the former members and the applicant. -/
theorem decideGroupJoinRequest_tells {requestId : Uuid} {request : DecideGroupJoinRequest}
    {r : GroupJoinRequest} {pending : GroupJoinRequest}
    (h : (decideGroupJoinRequest env actor requestId request now).Runs w r w')
    (hget : w.groupJoinRequests.get requestId = some pending) :
    Tells w w' (insert pending.applicantId (w.audience pending.conversationId))
      (.groupJoinRequest r) ∧ r.conversationId = pending.conversationId ∧
        r.applicantId = pending.applicantId := by
  unfold decideGroupJoinRequest at h
  simp only [Tx.runs_get_bind, Tx.runs_okOr_bind, Tx.runs_failIf_bind, Tx.runs_ofExcept_bind,
    hget] at h
  obtain ⟨_, ⟨⟩, -, c, hc, _, -, h⟩ := h
  obtain ⟨_, w₁, hjoined, h⟩ := Tx.runs_bind.mp h
  rw [update_bind_runs] at h
  obtain ⟨_, w₂, hnotice, h⟩ := Tx.runs_bind.mp h
  obtain ⟨_, w₃, hevent, h⟩ := Tx.runs_bind.mp h
  obtain ⟨rfl, rfl⟩ := Tx.runs_pure.mp h
  have hnoticed := Tx.Keeps.runs (R := Grows) hnotice
  have hbefore := IsTrans.trans _ _ _ (Tx.Keeps.runs (R := Grows) hjoined) hnoticed
  refine ⟨?_, rfl, rfl⟩
  have htells := tells_event hevent hbefore (refl w')
  rwa [List.toFinset_append, ← audience_of hc, List.toFinset_cons, List.toFinset_nil,
    insert_empty_eq, Finset.union_comm, ← Finset.insert_eq] at htells

/-- The user loses the conversation that the operation names, and nobody else does. -/
def Op.Departs (u : UserId) : Op → Prop
  | .leaveGroup actor _ _ => u = actor
  | .removeGroupMember _ _ target _ => u = target
  | _ => False

variable {op : Op}

theorem Op.admits_told (hr : (op.run env).Runs w () w') (h : op.Admits env w u id) :
    Told w w' u := by
  cases op
  case decideFriendRequest actor requestId decision now =>
    obtain ⟨_, hr⟩ := Tx.runs_void.mp hr
    cases decision with
    | accept =>
      obtain ⟨-, request, hget, hu⟩ := h
      exact decideFriendRequest_told hr hget hu
    | reject => exact absurd h (by simp [Op.Admits])
  case createDirect =>
    obtain ⟨_, hr⟩ := Tx.runs_void.mp hr
    exact createDirect_told hr h.1 h.2.2
  case createGroup =>
    obtain ⟨_, hr⟩ := Tx.runs_void.mp hr
    exact createGroup_told hr h.2
  case addGroupMembers =>
    obtain ⟨_, hr⟩ := Tx.runs_void.mp hr
    exact addGroupMembers_told hr h.2
  case decideGroupJoinRequest =>
    obtain ⟨_, hr⟩ := Tx.runs_void.mp hr
    obtain ⟨-, pending, hget, -, rfl⟩ := h
    exact (decideGroupJoinRequest_tells hr hget).1.told (Finset.mem_insert_self ..)
  all_goals exact absurd h (by simp [Op.Admits])

/-- Who is removed is told, or departs, or has no account left. -/
theorem Op.removes_told (hdrawn : AccountsDrawn env w) (hr : (op.run env).Runs w () w')
    (h : op.Removes u id) (hread : w.readable u id = true) :
    Told w w' u ∨ op.Departs u ∨ w'.Deleted u := by
  cases op
  case leaveGroup => exact .inr (.inl h.1)
  case removeGroupMember => exact .inr (.inl h.1)
  case disbandGroup =>
    obtain ⟨_, hr⟩ := Tx.runs_void.mp hr
    cases h
    exact .inl (disbandGroup_told hr hread)
  case deleteAccount =>
    obtain ⟨_, hr⟩ := Tx.runs_void.mp hr
    cases h
    obtain ⟨_, -, hgone⟩ := deleteAccount_gone hdrawn hr
    obtain ⟨a, ha, -, hdeleted⟩ := hgone.account
    exact .inr (.inr ⟨a, ha, hdeleted⟩)
  all_goals exact absurd h (by simp [Op.Removes])

/-- An operation on a group that shows no profile speaks to the members it leaves. -/
theorem Announced.to_members {recipients : Finset UserId} {payload : EventPayload}
    (h : Announced w w' op recipients payload) (hdeparts : op.Departs u) :
    ∃ id, op.names = some id ∧ recipients = w'.audience id := by
  cases h with
  | @profile op _ _ _ _ hop => cases op <;> simp_all [Op.Departs, Op.shows]
  | @members op id _ hid =>
    cases op <;> simp only [Op.Departs] at hdeparts
    · exact ⟨_, rfl, by rw [hid _ rfl]⟩
    · exact ⟨_, rfl, by rw [hid _ rfl]⟩
  | _ => simp [Op.Departs] at hdeparts

/-- Who departs is told nothing. -/
theorem Op.departs_untold (hw : Named w) (hr : (op.run env).Runs w () w')
    (hfresh : w.conversations.get (env.uuid w.nextUuid) = none) (h : op.Departs u) :
    ¬ Told w w' u := by
  rintro ⟨e, he, hu⟩
  obtain ⟨id, hnames, haudience⟩ := ((op.announced hw hr).appended e he).to_members h
  rw [haudience, Store.mem_audience, op.readable hr hfresh] at hu
  cases op <;> simp_all [Op.Departs, Op.names, Op.Removes, Op.Admits]

/-- Who departs was a member. -/
theorem Op.departs_member (hr : (op.run env).Runs w () w') (h : op.Departs u) :
    ∃ id, op.names = some id ∧ w.readable u id = true := by
  obtain ⟨n, m, hshape, -, -⟩ := Op.reshaped hr
  cases hshape with
  | left hget _ hmember =>
    cases h
    exact ⟨_, rfl, readable_of hget hmember⟩
  | expelled hget _ hremove =>
    cases h
    exact ⟨_, rfl, readable_of hget (Conversation.removeMember_ok hremove).2.2.1⟩
  | same hop => cases op <;> simp_all [Op.Departs, Op.reshapes]
  | _ => simp [Op.Departs] at h

/-- And is none afterwards. -/
theorem Op.departs_loses (hr : (op.run env).Runs w () w')
    (hfresh : w.conversations.get (env.uuid w.nextUuid) = none) (h : op.Departs u) :
    ∃ id, w'.readable u id ≠ w.readable u id := by
  obtain ⟨id, hnames, hread⟩ := Op.departs_member hr h
  refine ⟨id, fun hsame => ?_⟩
  rw [← hsame, op.readable hr hfresh] at hread
  cases op <;> simp_all [Op.Departs, Op.names, Op.Removes, Op.Admits]

theorem Op.departs_accounts (hr : (op.run env).Runs w () w') (h : op.Departs u) :
    w'.Deleted u ↔ w.Deleted u := by
  have hsame : w'.accounts = w.accounts := Op.same hr (f := .accounts)
    (by cases op <;> simp_all [Op.Departs, Op.touches, logFields])
  unfold Store.Deleted
  rw [hsame]

end

/-- **Announced membership.** After a transaction everyone whose readable conversations changed,
deleted accounts apart, is a recipient of one of its events, exactly unless a user with an account
leaves a group or is removed from it. -/
theorem membership_told (env : Env) (hu : Function.Injective env.uuid) (w : World)
    (hw : (service env).Reachable w) (op : Op) (w' : World) (hr : (op.run env).Runs w () w') :
    (∀ u, ¬ w'.Deleted u → (∃ id, w'.readable u id ≠ w.readable u id) →
      ∃ e ∈ w'.events.drop w.events.length, u ∈ e.recipients) ↔
    ∀ u, op.Departs u → w.Deleted u := by
  have hnamed := (named_inductive env).reachable hw
  have hfresh := ((placed_inductive hu).reachable hw).fresh hu
  constructor
  · intro htold u hdeparts
    by_contra hdeleted
    refine op.departs_untold hnamed hr hfresh hdeparts
      (htold u ?_ (op.departs_loses hr hfresh hdeparts))
    rwa [op.departs_accounts hr hdeparts]
  · rintro hspared u hkept ⟨id, hchanged⟩
    have hiff : w'.readable u id = true ↔
        (w.readable u id = true ∧ ¬ op.Removes u id) ∨ op.Admits env w u id := op.readable hr hfresh
    by_cases hadmits : op.Admits env w u id
    · exact op.admits_told hr hadmits
    by_cases hremoves : w.readable u id = true ∧ op.Removes u id
    · rcases op.removes_told (accounts_drawn hw) hr hremoves.2 hremoves.1 with h | h | h
      · exact h
      · exact absurd ((op.departs_accounts hr h).mpr (hspared u h)) hkept
      · exact absurd h hkept
    · refine absurd ?_ hchanged
      rw [Bool.eq_iff_iff, hiff]
      tauto

/-- Alice disbands the group, and Bob is told. -/
theorem membership_told_disbanded : ∃ w w', (service Env.numbered).Reachable w ∧
    (disbandGroup Env.numbered 1 11 0).Runs w () w' ∧ w.readable 4 11 = true ∧
    w'.readable 4 11 = false ∧ ∃ e ∈ w'.events.drop w.events.length, 4 ∈ e.recipients := by
  obtain ⟨w, _, w', hw, hr, hp⟩ := reaches_runs Env.numbered aliceAndBob
    (disbandGroup Env.numbered 1 11 0) (fun w _ w' => w.readable 4 11 && !w'.readable 4 11 &&
      (w'.accounts.get 4).any (·.deletedAt.isNone)) (by decide +kernel)
  simp only [Bool.and_eq_true, Bool.not_eq_true'] at hp
  obtain ⟨⟨hbefore, hafter⟩, hkept⟩ := hp
  obtain ⟨a, ha, hnone⟩ := (Option.any_eq_true ..).mp hkept
  refine ⟨w, w', reachable_of_run hw, hr, hbefore, hafter, ?_⟩
  refine (membership_told Env.numbered Env.numbered_injective w (reachable_of_run hw)
    (.disbandGroup 1 11 0) w' (Tx.runs_void.mpr ⟨_, hr⟩)).mpr (fun u h => absurd h id) 4 ?_
    ⟨11, by simp [hbefore, hafter]⟩
  rintro ⟨a', ha', hdeleted⟩
  cases ha.symm.trans ha'
  simp_all

/-- Alice removes Bob from the group: he has an account and loses the group, and no event tells
him. -/
theorem removed_untold : ∃ w w', (service Env.numbered).Reachable w ∧
    (removeGroupMember Env.numbered 1 11 4 0).Runs w () w' ∧ ¬ w'.Deleted 4 ∧
    w.readable 4 11 = true ∧ w'.readable 4 11 = false ∧
    ∀ e ∈ w'.events.drop w.events.length, 4 ∉ e.recipients := by
  obtain ⟨w, _, w', hw, hr, hp⟩ := reaches_runs Env.numbered aliceAndBob
    (removeGroupMember Env.numbered 1 11 4 0) (fun w _ w' => w.readable 4 11 && !w'.readable 4 11 &&
      (w'.accounts.get 4).any (·.deletedAt.isNone) &&
      (w'.events.drop w.events.length).all fun e => decide (4 ∉ e.recipients)) (by decide +kernel)
  simp only [Bool.and_eq_true, Bool.not_eq_true', List.all_eq_true, decide_eq_true_eq] at hp
  obtain ⟨⟨⟨hbefore, hafter⟩, hkept⟩, huntold⟩ := hp
  obtain ⟨a, ha, hnone⟩ := (Option.any_eq_true ..).mp hkept
  refine ⟨w, w', reachable_of_run hw, hr, ?_, hbefore, hafter, huntold⟩
  rintro ⟨a', ha', hdeleted⟩
  cases ha.symm.trans ha'
  simp_all

/-! ## Entitlement -/

/-- The role of a member of the stored conversation. -/
def roleIn (m : Map ConversationId Conversation) (id : ConversationId) (u : UserId) :
    Option MemberRole :=
  (m.get id).bind fun c => (c.members.get u).map (·.role)

/-- The user is a member with the role of an administrator at least. -/
def Store.Administers (s : Store) (id : ConversationId) (u : UserId) : Prop :=
  ∃ role, roleIn s.conversations id u = some role ∧ .administrator ≤ role

/-- The user may see what the event carries, when `actor` acts. -/
def EventPayload.Entitles (s : Store) (actor : Option UserId) (u : UserId) : EventPayload → Prop
  | .conversation c | .conversationAdded c _ | .conversationMember c _ => s.readable u c.id = true
  | .message m | .messageForwarded m => s.readable u m.conversationId = true
  | .groupAnnouncement announcement => s.readable u announcement.conversationId = true
  | .groupPoll poll => s.readable u poll.conversationId = true
  | .conversationSettings _ | .friendSettings _ | .allRead => actor = some u
  | .friendRequest r => u = r.senderId ∨ u = r.recipientId
  | .groupJoinRequest r => u = r.applicantId ∨ s.Administers r.conversationId u
  | _ => True

/-- A join request is decided in front of administrators and its applicant only. -/
def Op.Discreet (w : World) : Op → Prop
  | .decideGroupJoinRequest _ requestId _ _ => ∀ pending,
    w.groupJoinRequests.get requestId = some pending →
      ∀ u, w.readable u pending.conversationId = true →
        u = pending.applicantId ∨ w.Administers pending.conversationId u
  | _ => True

section
variable {env : Env} {w w' : World} {op : Op} {u : UserId}

theorem EventPayload.Concerns.entitles {id : ConversationId} {payload : EventPayload}
    (h : payload.Concerns id) {s : Store} {actor : Option UserId} (hu : s.readable u id = true) :
    payload.Entitles s actor u := by
  cases payload <;> simp_all [EventPayload.Concerns, EventPayload.Entitles]

theorem mem_administrators {s : Store} {c : Conversation} {id : ConversationId}
    (hkeyed : KeyedMembers c.members) (hget : s.conversations.get id = some c)
    (hu : u ∈ c.administrators) : s.Administers id u := by
  obtain ⟨member, hmember, rfl⟩ := List.mem_map.mp hu
  obtain ⟨hmember, hrole⟩ := List.mem_filter.mp hmember
  obtain ⟨key, hkey⟩ := Map.mem_values.mp hmember
  rw [hkeyed _ _ hkey]
  exact ⟨member.role, by simp [roleIn, hget, hkey], by simpa using hrole⟩

theorem Retouched.role {m m' : Map ConversationId Conversation} (h : Retouched m m')
    (id : ConversationId) (u : UserId) : roleIn m' id u = roleIn m id u := by
  have hid := h id
  unfold roleIn
  cases hm : m.get id with
  | none => simp_all
  | some c =>
    rw [hm, Option.map_some] at hid
    obtain ⟨c', hc', htime⟩ := Option.map_eq_some_iff.mp hid
    rw [hc', Option.bind_some, Option.bind_some, timeless_members htime]

/-- A decision changes no role but the applicant's. -/
theorem decide_administers {actor : UserId} {requestId : Uuid} {request : DecideGroupJoinRequest}
    {now : DateTime} {pending : GroupJoinRequest} {id : ConversationId}
    (hr : ((Op.decideGroupJoinRequest actor requestId request now).run env).Runs w () w')
    (hpending : w.groupJoinRequests.get requestId = some pending) (hu : u ≠ pending.applicantId) :
    w'.Administers id u ↔ w.Administers id u := by
  obtain ⟨n, m, hshape, -, htouch⟩ := Op.reshaped hr
  have hrole : roleIn m id u = roleIn w.conversations id u := by
    cases hshape with
    | same hop => simp [Op.reshapes] at hop
    | refused => rfl
    | admitted _ hget hc =>
      cases hpending.symm.trans hget
      unfold roleIn
      rw [Map.get_insert]
      split
      · subst_vars
        rw [hc, Option.bind_some, Option.bind_some, Map.get_insert, if_neg hu]
      · rfl
  unfold Store.Administers
  rw [htouch.role, hrole]

/-- The events of a transaction go to users entitled to them exactly if it is discreet. -/
theorem Op.entitled_iff (hnamed : Named w) (hkeyed : Keyed w') (hr : (op.run env).Runs w () w') :
    (∀ e ∈ w.appended w', ∀ u ∈ e.recipients, e.event.payload.Entitles w'.toStore op.actor u) ↔
      op.Discreet w := by
  constructor
  · intro h
    cases op
    case decideGroupJoinRequest actor requestId request now =>
      intro pending hpending u hread
      by_cases hne : u = pending.applicantId
      · exact .inl hne
      obtain ⟨r, hdecide⟩ := Tx.runs_void.mp hr
      obtain ⟨⟨e, he, hrecipients, hpayload⟩, hid, happlicant⟩ :=
        decideGroupJoinRequest_tells hdecide hpending
      have hentitled := h e he u (by
        rw [hrecipients]
        exact Finset.mem_insert_of_mem (Store.mem_audience.mpr hread))
      rw [hpayload] at hentitled
      rcases hentitled with heq | hadmin
      · exact .inl (heq.trans happlicant)
      · rw [hid] at hadmin
        exact .inr ((decide_administers hr hpending hne).mp hadmin)
    all_goals trivial
  · intro h e he
    have hannounced := (op.announced hnamed hr).appended e he
    revert hannounced
    generalize e.recipients = recipients, e.event.payload = payload
    intro hannounced u hmem
    cases hannounced with
    | opened hread =>
      cases Finset.mem_singleton.mp hmem
      exact hread
    | members hid hconcerns => exact hconcerns.entitles (Store.mem_audience.mp hmem)
    | requested => simpa [EventPayload.Entitles] using hmem
    | decided => simpa [EventPayload.Entitles] using hmem
    | applied hget hid =>
      right
      rw [hid]
      exact mem_administrators (hkeyed _ _ hget) hget (by simpa using hmem)
    | @reviewed _ _ _ _ _ pending hpending hid happlicant =>
      rcases Finset.mem_insert.mp hmem with rfl | hmem
      · exact .inl happlicant.symm
      by_cases hne : u = pending.applicantId
      · exact .inl (hne.trans happlicant.symm)
      rcases h _ hpending u (Store.mem_audience.mp hmem) with heq | hadmin
      · exact absurd heq hne
      · rw [EventPayload.Entitles, hid]
        exact .inr ((decide_administers hr hpending hne).mpr hadmin)
    | configured | settings | allRead => simp_all [EventPayload.Entitles, Op.actor]
    | _ => trivial

end

/-- The runs in which join requests are decided in front of administrators only. -/
def discreetService (env : Env) : LTS World Op := (service env).restrict fun w op => op.Discreet w

/-- **Entitlement.** In such a run every recipient of an entry of the log was entitled to what it
carries when it was appended. -/
theorem events_entitled (env : Env) (ops : List Op) (w : World)
    (hrun : (discreetService env).Run World.init ops w) (e : UserEvent) (he : e ∈ w.events) :
    ∃ before op after w₁ w₂, ops = before ++ op :: after ∧
      (discreetService env).Run World.init before w₁ ∧ (op.run env).Runs w₁ () w₂ ∧
      (discreetService env).Run w₂ after w ∧ e ∈ w₂.events.drop w₁.events.length ∧
      ∀ u ∈ e.recipients, e.event.payload.Entitles w₂.toStore op.actor u := by
  have hgrows : ∀ w op w', (discreetService env).step w op w' →
      ∃ new, w'.events = w.events ++ new := by
    intro w op w' hstep
    obtain ⟨new, hnew, -⟩ := ((op.evolves env).runs hstep.2).log
    exact ⟨new, hnew⟩
  obtain ⟨before, op, after, w₁, w₂, rfl, hbefore, hstep, hafter, hmem⟩ :=
    hrun.appended hgrows (e := e) he
  have hreach := reachable_of_run hbefore.of_restrict
  have hnamed := (named_inductive env).reachable hreach
  have hkeyed := (keyed_inductive env).reachable (hreach.step hstep.2)
  have hentitled := (op.entitled_iff hnamed hkeyed hstep.2).mpr hstep.1
  exact ⟨before, op, after, w₁, w₂, rfl, hbefore, hstep.2, hafter, hmem, hentitled e hmem⟩

/-- Carol, for a group with a plain member. -/
def carol : RegisterInput := { alice with
  email := "carol@example.com"
  username := "carol"
  nickname := "Carol" }

/-- `Op.Discreet`, computed. -/
def Op.discreet (w : World) : Op → Bool
  | .decideGroupJoinRequest _ requestId _ _ => (w.groupJoinRequests.get requestId).all fun pending =>
    ((w.conversations.get pending.conversationId).elim [] (·.members.keys)).all fun u =>
      decide (u = pending.applicantId) ||
        (roleIn w.conversations pending.conversationId u).any fun role =>
          decide (.administrator ≤ role)
  | _ => true

theorem discreet_of_check {w : World} {op : Op} (h : op.discreet w = true) : op.Discreet w := by
  cases op
  case decideGroupJoinRequest actor requestId request now =>
    intro pending hpending u hread
    obtain ⟨c, hc, hmember⟩ := Store.readable_iff.mp hread
    simp only [Op.discreet, hpending, Option.all_some, hc, Option.elim_some, List.all_eq_true] at h
    rcases (Bool.or_eq_true ..).mp (h u (List.mem_toFinset.mp (mem_members.mpr hmember)))
      with heq | hrole
    · exact .inl (by simpa using heq)
    · obtain ⟨role, hrole, hadmin⟩ := (Option.any_eq_true ..).mp hrole
      exact .inr ⟨role, hrole, by simpa using hadmin⟩
  all_goals trivial

/-- The event carries a join request and is addressed to the user. -/
def UserEvent.showsJoinRequest (e : UserEvent) (u : UserId) : Bool :=
  decide (u ∈ e.recipients) && match e.event.payload with
    | .groupJoinRequest _ => true
    | _ => false

/-- Bob is an administrator when Alice accepts Carol. -/
theorem events_entitled_accepted : ∃ ops w e, (discreetService Env.numbered).Run World.init ops w ∧
    e ∈ w.events ∧ e.showsJoinRequest 4 = true ∧ ∃ before op after w₁ w₂,
      ops = before ++ op :: after ∧ (discreetService Env.numbered).Run World.init before w₁ ∧
      (op.run Env.numbered).Runs w₁ () w₂ ∧ (discreetService Env.numbered).Run w₂ after w ∧
      e ∈ w₂.events.drop w₁.events.length ∧
      ∀ u ∈ e.recipients, e.event.payload.Entitles w₂.toStore op.actor u := by
  obtain ⟨w, ⟨_, ops, rfl, hrun⟩, hp⟩ := reaches_checked Env.numbered
    (fun w op => op.discreet w) (fun _ _ => discreet_of_check)
    (aliceAndBob ++ [.register carol 0,
      .updateGroupMember 1 11 4 ⟨none, some .administrator, none⟩ 0,
      .requestToJoinGroup 14 11 ⟨"hello"⟩ 0, .decideGroupJoinRequest 1 21 ⟨true⟩ 0])
    (fun w => w.events.any fun e => e.showsJoinRequest 4 && e.showsJoinRequest 14)
    (by decide +kernel)
  obtain ⟨e, he, hshows⟩ := List.any_eq_true.mp hp
  exact ⟨ops, w, e, hrun, he, ((Bool.and_eq_true ..).mp hshows).1,
    events_entitled Env.numbered ops w hrun e he⟩

/-- Alice rejects Carol, and Bob, a plain member, is sent her request. -/
theorem join_request_leaks : ∃ w w' e, (service Env.numbered).Reachable w ∧
    ((Op.decideGroupJoinRequest 1 17 ⟨false⟩ 0).run Env.numbered).Runs w () w' ∧
    e ∈ w'.events.drop w.events.length ∧ 4 ∈ e.recipients ∧
    ¬ e.event.payload.Entitles w'.toStore (some 1) 4 := by
  obtain ⟨w, _, w', hw, hr, hp⟩ := reaches_runs Env.numbered (aliceAndBob ++
      [.register carol 0, .requestToJoinGroup 14 11 ⟨"hello"⟩ 0])
    ((Op.decideGroupJoinRequest 1 17 ⟨false⟩ 0).run Env.numbered)
    (fun w _ w' => (w'.events.drop w.events.length).any fun e => decide (4 ∈ e.recipients) &&
      match e.event.payload with
      | .groupJoinRequest r => decide (r.applicantId ≠ 4) &&
        (roleIn w'.conversations r.conversationId 4).all fun role => decide (¬ .administrator ≤ role)
      | _ => false) (by decide +kernel)
  obtain ⟨e, he, hp⟩ := List.any_eq_true.mp hp
  obtain ⟨hmem, hp⟩ := (Bool.and_eq_true ..).mp hp
  refine ⟨w, w', e, reachable_of_run hw, hr, he, by simpa using hmem, ?_⟩
  split at hp
  · rename_i r hpayload
    rw [hpayload]
    simp only [Bool.and_eq_true, decide_eq_true_eq] at hp
    rintro (heq | ⟨role, hrole, hadmin⟩)
    · exact hp.1 heq.symm
    · rw [hrole, Option.all_some, decide_eq_true_eq] at hp
      exact hp.2 hadmin
  · cases hp

end IamRust
