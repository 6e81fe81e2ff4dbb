import IamRust.L4Properties.Access
import IamRust.L4Properties.Suspension

/-!
# Authority in a group

Whoever removes a member of a group, or changes the role of one or how long one
is muted, has a higher role (`Hierarchical`). The checks are spread over the
operations, and one of them has none: a decision that admits an applicant does
not ask whether the applicant has become a member meanwhile, and puts a plain
membership in place of what is there.

* `Reshaped.authority`: the other changes keep to the roles.
* `authority_holds_iff`: a transaction keeps to them unless it is such a decision.
* `owner_readmitted`: an administrator takes the group from its owner that way.
-/
namespace IamRust

open Core

/-- The record of a member. -/
def memberIn (m : Map ConversationId Conversation) (id : ConversationId) (u : UserId) :
    Option ConversationMember := (m.get id).bind (·.members.get u)

/-- The role of the member, and how long they are muted. -/
def ConversationMember.standing (m : ConversationMember) : MemberRole × Option DateTime :=
  (m.role, m.mutedUntil)

namespace Conversation

/-- The role of `a` is higher than that of `t`. -/
def Outranks (c : Conversation) (a t : UserId) : Prop :=
  ∃ r s, c.members.get a = some r ∧ c.members.get t = some s ∧ s.role < r.role

/-- There are no two owners. -/
def OneOwner (c : Conversation) : Prop := ∀ u v, c.Owns u → c.Owns v → u = v

section
variable {c c' : Conversation} {u v : UserId} {now : DateTime}

theorem lt_owner {role : MemberRole} (h : role ≠ .owner) : role < .owner := by
  cases role
  · exact (by decide : MemberRole.member < .owner)
  · exact (by decide : MemberRole.administrator < .owner)
  · exact absurd rfl h

/-- An owner outranks whoever is none. -/
theorem Owns.outranks (hu : c.Owns u) {s : ConversationMember} (hs : c.members.get v = some s)
    (hrole : s.role ≠ .owner) : c.Outranks u v := by
  obtain ⟨r, hr, ho⟩ := hu
  exact ⟨r, s, hr, hs, ho ▸ lt_owner hrole⟩

/-! ## One owner -/

theorem OneOwner.mono (h : c.OneOwner) (hle : ∀ u, c'.Owns u → c.Owns u) : c'.OneOwner :=
  fun u v hu hv => h u v (hle u hu) (hle v hv)

theorem OneOwner.of_eq (h : ∀ v, c'.Owns v → v = u) : c'.OneOwner :=
  fun _ _ hv hw => (h _ hv).trans (h _ hw).symm

theorem direct_oneOwner {id : ConversationId} {a b : UserId} (h : direct id a b now = .ok c) :
    c.OneOwner := by
  unfold direct at h
  split at h
  · cases h
  · cases h
    rintro u v ⟨r, hr, hrole⟩ -
    simp only [List.foldl_cons, List.foldl_nil, Map.get_insert, Map.get_empty] at hr
    split at hr
    · cases hr; cases hrole
    · split at hr
      · cases hr; cases hrole
      · cases hr

theorem transferOwnership_cases {actor target : UserId}
    (h : c.transferOwnership actor target now = .ok c') : c.Owns actor ∧
      c'.members = (c.members.modify actor fun m => { m with role := .member }).modify target
        fun m => { m with role := .owner } := by
  unfold transferOwnership at h
  split at h
  · cases h
  · rename_i howner
    split at h <;> cases h
    exact ⟨Option.map_eq_some_iff.mp (not_not.mp howner), rfl⟩

theorem removeMember_outranks {actor target : UserId}
    (h : c.removeMember actor target now = .ok c') : c.Outranks actor target := by
  unfold removeMember at h
  split at h
  · cases h
  split at h
  · cases h
  split at h
  · cases h
  · rename_i a ha _ t ht hrole
    exact ⟨a, t, ha, ht, Nat.lt_of_not_le fun hle => hrole (.inr hle)⟩

theorem get_detach {actor : UserId} (h : v ≠ actor) :
    (c.detach actor now).members.get v = c.members.get v ∨
      c.isGroup = true ∧ c.Owns actor ∧ c.successor actor = some v ∧
        (c.detach actor now).members.get v =
          (c.members.get v).map fun m => { m with role := .owner } := by
  unfold Conversation.detach
  split
  · exact .inl rfl
  dsimp only
  rw [Map.get_remove, if_neg h]
  split
  · rename_i successor hsuccessor
    rw [Map.get_modify]
    split
    · subst_vars
      split at hsuccessor
      · rename_i howner
        exact .inr ⟨howner.1, Option.map_eq_some_iff.mp howner.2, hsuccessor, rfl⟩
      · cases hsuccessor
    · exact .inl rfl
  · exact .inl rfl

theorem OneOwner.detach (h : c.OneOwner) (actor : UserId) (now : DateTime) :
    (c.detach actor now).OneOwner := by
  intro u v hu hv
  have hread : ∀ {v}, (c.detach actor now).Owns v → v ≠ actor := fun hv =>
    (detach_canRead.mp hv.canRead).1
  have hu' := hread hu
  have hv' := hread hv
  -- an owner afterwards is one of before, or takes over from the actor, the one owner
  have hcases : ∀ {v}, (c.detach actor now).Owns v → v ≠ actor →
      c.Owns v ∧ ¬ c.Owns actor ∨ c.Owns actor ∧ c.successor actor = some v := by
    intro v hv hne
    have hdetach : (c.detach actor now).members.get v = c.members.get v ∨ _ := get_detach hne
    rcases hdetach with hsame | ⟨-, hown, hsucc, -⟩
    · have hv : c.Owns v := by
        obtain ⟨r, hr, hrole⟩ := hv
        exact ⟨r, hsame ▸ hr, hrole⟩
      exact .inl ⟨hv, fun ha => hne (h v actor hv ha)⟩
    · exact .inr ⟨hown, hsucc⟩
  rcases hcases hu hu' with ⟨hu, ha⟩ | ⟨ha, hsu⟩ <;>
    rcases hcases hv hv' with ⟨hv, ha'⟩ | ⟨ha', hsv⟩
  · exact h u v hu hv
  · exact absurd ha' ha
  · exact absurd ha ha'
  · exact Option.some.inj (hsu.symm.trans hsv)

end

end Conversation

section
variable {env : Env} {w w' : World} {n : Nat} {op : Op} {m : Map ConversationId Conversation}
  {id : ConversationId} {c : Conversation}

/-- No group has two owners. -/
def SingleOwners (m : Map ConversationId Conversation) : Prop :=
  ∀ id c, m.get id = some c → c.OneOwner

theorem SingleOwners.insert (h : SingleOwners m) {i : ConversationId} (hc : c.OneOwner) :
    SingleOwners (m.insert i c) := by
  intro id c' hget
  rw [Map.get_insert] at hget
  split at hget
  · cases hget
    exact hc
  · exact h id c' hget

theorem Reshaped.singleOwners (h : Reshaped env w n op m) (hw : SingleOwners w.conversations) :
    SingleOwners m := by
  have hwrite : ∀ {i c c₁}, w.conversations.get i = some c → (∀ u, c₁.Owns u → c.Owns u) →
      SingleOwners (w.conversations.insert i c₁) := fun hget hle =>
    hw.insert ((hw _ _ hget).mono hle)
  cases h with
  | same | declined | reopened | refused => exact hw
  | befriended _ _ hnew | opened _ _ _ hnew => exact hw.insert (Conversation.direct_oneOwner hnew)
  | founded _ hnew =>
    have hgov := Conversation.group_governed hnew
    exact hw.insert fun u v => hgov.owns_unique (Conversation.group_ok hnew).2.1
  | updated hget =>
    refine hwrite hget fun u => ?_
    unfold Conversation.Owns
    rw [Conversation.updateGroup_members]
    exact fun h => h
  | invited hget =>
    refine hwrite hget fun u => ?_
    rintro ⟨r, hr, hrole⟩
    rw [Conversation.get_addMembers] at hr
    split at hr
    · cases hr
      cases hrole
    · exact ⟨r, hr, hrole⟩
  | left hget => exact hwrite hget fun u ⟨r, hr, hrole⟩ => ⟨r, Map.get_of_remove hr, hrole⟩
  | disbanded => exact fun id c hget => hw id c (Map.get_of_remove hget)
  | amended hget _ _ htarget hallowed =>
    refine hwrite hget fun u => ?_
    rintro ⟨r, hr, hrole⟩
    rw [Map.get_insert] at hr
    split at hr
    · cases hr
      subst_vars
      exact ⟨_, htarget, (role_apply hallowed).mp hrole⟩
    · exact ⟨r, hr, hrole⟩
  | expelled hget _ hremove =>
    rw [(Conversation.removeMember_ok hremove).1]
    exact hwrite hget fun u ⟨r, hr, hrole⟩ => ⟨r, Map.get_of_remove hr, hrole⟩
  | @transferred actor _ request _ c c' hget _ htransfer =>
    obtain ⟨hown, hmembers⟩ := Conversation.transferOwnership_cases htransfer
    refine hw.insert (.of_eq (u := request.userId) fun v hv => ?_)
    obtain ⟨r, hr, hrole⟩ := hv
    by_contra hne
    rw [hmembers, Map.get_modify, if_neg hne, Map.get_modify] at hr
    split at hr
    · obtain ⟨_, -, rfl⟩ := Option.map_eq_some_iff.mp hr
      cases hrole
    · exact absurd (hw _ _ hget v actor ⟨r, hr, hrole⟩ hown) ‹_›
  | admitted _ _ hget =>
    refine hwrite hget fun u => ?_
    rintro ⟨r, hr, hrole⟩
    rw [Map.get_insert] at hr
    split at hr
    · cases hr
      cases hrole
    · exact ⟨r, hr, hrole⟩
  | detached =>
    intro id c hget
    rw [Map.get_mapValues, Option.map_eq_some_iff] at hget
    obtain ⟨c, hc, rfl⟩ := hget
    exact (hw id c hc).detach _ _

theorem Retouched.singleOwners {m' : Map ConversationId Conversation} (h : Retouched m m')
    (hm : SingleOwners m) : SingleOwners m' := by
  intro id c' hget
  obtain ⟨c, hc, htime⟩ := h.before hget
  refine (hm id c hc).mono fun u => ?_
  unfold Conversation.Owns
  rw [timeless_members htime]
  exact fun h => h

theorem singleOwners_inductive (env : Env) :
    (service env).Inductive fun w => SingleOwners w.conversations where
  init w hw id c hget := by
    have hw : w = World.init := hw
    subst hw
    cases (Map.get_empty _).symm.trans hget
  step w op w' h hr := by
    obtain ⟨n, m, hshape, -, htouch⟩ := Op.reshaped hr
    exact htouch.singleOwners (hshape.singleOwners h)

/-! ## What becomes of a member -/

theorem memberIn_insert {i : ConversationId} {u : UserId} : memberIn (m.insert i c) id u =
    if id = i then c.members.get u else memberIn m id u := by
  unfold memberIn
  rw [Map.get_insert]
  split <;> rfl

theorem Retouched.member {m' : Map ConversationId Conversation} (h : Retouched m m')
    (id : ConversationId) (u : UserId) : memberIn m' id u = memberIn m id u := by
  have hid := h id
  unfold memberIn
  cases hm : m.get id with
  | none => simp_all
  | some c =>
    rw [hm, Option.map_some] at hid
    obtain ⟨c', hc', htime⟩ := Option.map_eq_some_iff.mp hid
    rw [hc', Option.bind_some, Option.bind_some, timeless_members htime]

theorem disbandGroup_owner {actor : UserId} {now : DateTime} {x : Unit}
    (h : (disbandGroup env actor id now).Runs w x w') :
    ∃ c, w.conversations.get id = some c ∧ c.Owns actor := by
  unfold disbandGroup at h
  simp only [Tx.runs_get_bind, Tx.runs_okOr_bind, Tx.runs_ofExcept_bind, requireRoleAtLeast_ok] at h
  obtain ⟨c, hget, _, -, _, ⟨r, hr, hrole⟩, -⟩ := h
  refine ⟨c, hget, r, hr, ?_⟩
  by_contra hne
  exact absurd hrole (Nat.not_le.mpr (Conversation.lt_owner hne))

/-- A change of settings the actor is allowed: the actor has the higher role if it concerns the
standing of the member. -/
theorem apply_standing {request : UpdateGroupMemberRequest} {member : ConversationMember}
    {actor target : UserId} {actorRole : MemberRole}
    (hallowed : request.forbidden actor target actorRole member.role = false)
    (hchanged : (member.apply request).standing ≠ member.standing) : member.role < actorRole := by
  simp only [UpdateGroupMemberRequest.forbidden, Bool.or_eq_false_iff] at hallowed
  obtain ⟨⟨-, hrole⟩, hmuted⟩ := hallowed
  cases hr : request.role with
  | some role =>
    simp only [hr, Option.any_some, Bool.or_eq_false_iff, bne_eq_false_iff_eq,
      beq_eq_false_iff_ne] at hrole
    rw [hrole.1.1]
    exact Conversation.lt_owner hrole.2
  | none =>
    cases hm : request.mutedUntil with
    | some mutedUntil =>
      simp only [hm, Option.isSome_some, Bool.true_and, decide_eq_false_iff_not, not_or] at hmuted
      exact Nat.lt_of_not_le hmuted.2
    | none =>
      refine absurd ?_ hchanged
      simp [ConversationMember.apply, ConversationMember.standing, hr, hm]

/-- The decision admits the user to the group. -/
def Op.Readmits (w : World) (id : ConversationId) (t : UserId) : Op → Prop
  | .decideGroupJoinRequest _ requestId request _ => request.accept = true ∧
    ∃ pending, w.groupJoinRequests.get requestId = some pending ∧
      id = pending.conversationId ∧ t = pending.applicantId
  | _ => False

/-- **A change.** It leaves the standing of a member, or is made by one who outranks them, or it
is a decision that admits them. -/
theorem Reshaped.authority (h : Reshaped env w n op m) {t : UserId} {r : ConversationMember}
    (hfresh : w.conversations.get (env.uuid w.nextUuid) = none)
    (hdisband : ∀ actor i now, op = .disbandGroup actor i now →
      ∃ c, w.conversations.get i = some c ∧ c.Owns actor)
    (hone : SingleOwners w.conversations) (hget : w.conversations.get id = some c)
    (ht : c.members.get t = some r) (hother : op.actor ≠ some t)
    (hchanged : (memberIn m id t).map (·.standing) ≠ some r.standing) :
    (∃ a, op.actor = some a ∧ c.Outranks a t) ∨ op.Readmits w id t := by
  have hmember : memberIn w.conversations id t = some r := by
    unfold memberIn
    rw [hget]
    exact ht
  have hkept : memberIn m id t ≠ some r := fun hsame => hchanged (by rw [hsame]; rfl)
  -- one conversation is written, and it is another one or has the record that counts
  have hwrite : ∀ {i c₁}, m = w.conversations.insert i c₁ → i = id ∧ c₁.members.get t ≠ some r := by
    rintro i c₁ rfl
    rw [memberIn_insert] at hkept
    split at hkept
    · exact ⟨Eq.symm ‹_›, hkept⟩
    · exact absurd hmember hkept
  have hnew : ∀ {c₁}, m = w.conversations.insert (env.uuid w.nextUuid) c₁ → False := by
    intro c₁ hm
    obtain ⟨rfl, -⟩ := hwrite hm
    cases hfresh.symm.trans hget
  have hold : ∀ {i c₀}, i = id → w.conversations.get i = some c₀ → c₀ = c := by
    rintro i c₀ rfl hc₀
    exact Option.some.inj (hc₀.symm.trans hget)
  cases h with
  | same | declined | reopened | refused => exact absurd hmember hkept
  | befriended _ _ hdirect | opened _ _ _ hdirect =>
    exact (hnew (by rw [(Conversation.direct_ok hdirect).2.1])).elim
  | founded _ hgroup => exact (hnew (by rw [(Conversation.group_ok hgroup).1])).elim
  | updated hc₀ =>
    obtain ⟨hid, hne⟩ := hwrite rfl
    obtain rfl := hold hid hc₀
    rw [Conversation.updateGroup_members] at hne
    exact absurd ht hne
  | invited hc₀ =>
    obtain ⟨hid, hne⟩ := hwrite rfl
    obtain rfl := hold hid hc₀
    rw [Conversation.get_addMembers, if_neg fun hmem => ?_] at hne
    · exact absurd ht hne
    · have := (Conversation.mem_newMembers.mp hmem).2
      rw [Conversation.canRead, Map.containsKey_iff.mpr ⟨r, ht⟩] at this
      cases this
  | left hc₀ =>
    obtain ⟨hid, hne⟩ := hwrite rfl
    obtain rfl := hold hid hc₀
    dsimp only at hne
    rw [Map.get_remove, if_neg fun he => hother (congrArg some he.symm)] at hne
    exact absurd ht hne
  | @disbanded actor i now c₀ hc₀ =>
    by_cases hid : i = id
    · obtain ⟨c₁, hc₁, hown⟩ := hdisband actor i now rfl
      obtain rfl := hold hid hc₁
      refine .inl ⟨actor, rfl, hown.outranks ht fun hrole => ?_⟩
      exact hother (congrArg some (hone _ _ hc₁ actor t hown ⟨r, ht, hrole⟩))
    · refine absurd ?_ hkept
      unfold memberIn at hmember ⊢
      rw [Map.get_remove, if_neg (Ne.symm hid)]
      exact hmember
  | @amended actor i target request now c₀ a t₀ hc₀ _ hactor htarget hallowed =>
    obtain ⟨hid, hne⟩ := hwrite rfl
    obtain rfl := hold hid hc₀
    rw [memberIn_insert, if_pos hid.symm] at hchanged
    dsimp only at hne hchanged
    rw [Map.get_insert] at hne hchanged
    split at hne
    · subst_vars
      cases htarget.symm.trans ht
      rw [if_pos rfl] at hchanged
      exact .inl ⟨actor, rfl, a, r, hactor, ht,
        apply_standing hallowed fun he => hchanged (congrArg some he)⟩
    · exact absurd ht hne
  | @expelled actor i target now c₀ c₁ hc₀ _ hremove =>
    obtain ⟨hid, hne⟩ := hwrite rfl
    obtain rfl := hold hid hc₀
    have hranks := Conversation.removeMember_outranks hremove
    obtain ⟨rfl, -⟩ := Conversation.removeMember_ok hremove
    dsimp only at hne
    rw [Map.get_remove] at hne
    split at hne
    · subst_vars
      exact .inl ⟨actor, rfl, hranks⟩
    · exact absurd ht hne
  | @transferred actor i request now c₀ c₁ hc₀ _ htransfer =>
    obtain ⟨hid, hne⟩ := hwrite rfl
    obtain rfl := hold hid hc₀
    obtain ⟨hown, hmembers⟩ := Conversation.transferOwnership_cases htransfer
    have hactor : t ≠ actor := fun he => hother (congrArg some he.symm)
    rw [memberIn_insert, if_pos hid.symm, hmembers, Map.get_modify, Map.get_modify, if_neg hactor,
      ht] at hchanged
    split at hchanged
    · exact .inl ⟨actor, rfl, hown.outranks ht fun hrole => hchanged (by
        simp [ConversationMember.standing, hrole])⟩
    · exact absurd rfl hchanged
  | @admitted actor requestId request now pending c₀ haccept hpending hc₀ =>
    obtain ⟨hid, hne⟩ := hwrite rfl
    obtain rfl := hold hid hc₀
    dsimp only at hne
    rw [Map.get_insert] at hne
    split at hne
    · exact .inr ⟨haccept, pending, hpending, hid.symm, ‹_›⟩
    · exact absurd ht hne
  | @detached actor _ _ now =>
    have hactor : t ≠ actor := fun he => hother (congrArg some he.symm)
    have hafter : memberIn (w.conversations.mapValues (·.detach actor now)) id t =
        (c.detach actor now).members.get t := by
      unfold memberIn
      rw [Map.get_mapValues, hget]
      rfl
    rw [hafter] at hchanged
    rcases Conversation.get_detach hactor with hsame | ⟨-, hown, -, hpromoted⟩
    · rw [hsame, ht] at hchanged
      exact absurd rfl hchanged
    · rw [hpromoted, ht] at hchanged
      exact .inl ⟨actor, rfl, hown.outranks ht fun hrole => hchanged (by
        simp [ConversationMember.standing, hrole])⟩

/-- A decision to accept makes a plain member of the applicant, and is about nobody else. -/
theorem decide_members {actor : UserId} {requestId : Uuid} {request : DecideGroupJoinRequest}
    {now : DateTime} {pending : GroupJoinRequest}
    (hr : ((Op.decideGroupJoinRequest actor requestId request now).run env).Runs w () w')
    (hpending : w.groupJoinRequests.get requestId = some pending) (id : ConversationId)
    (u : UserId) : memberIn w'.conversations id u =
      if request.accept = true ∧ id = pending.conversationId ∧ u = pending.applicantId then
        some (.joining u .member now)
      else memberIn w.conversations id u := by
  obtain ⟨n, m, hshape, -, htouch⟩ := Op.reshaped hr
  rw [htouch.member]
  cases hshape with
  | same hop => cases hop
  | refused haccept => simp [haccept]
  | admitted haccept hpending' hget =>
    cases hpending.symm.trans hpending'
    rw [memberIn_insert]
    by_cases hid : id = pending.conversationId
    · subst hid
      dsimp only
      rw [if_pos rfl, Map.get_insert]
      by_cases hu : u = pending.applicantId
      · subst hu
        simp [haccept]
      · rw [if_neg hu, if_neg (by simp [hu])]
        simp [memberIn, hget]
    · rw [if_neg hid, if_neg (by simp [hid])]

end

/-! ## Main result -/

/-- Whoever removes another member of a group, or changes their role or how long they are muted,
has the higher role; and a decision on a join request leaves every member as they are. -/
structure Hierarchical (w : World) (op : Op) (w' : World) : Prop where
  ranks : ∀ id c t r, w.conversations.get id = some c → c.isGroup = true →
    c.members.get t = some r → op.actor ≠ some t →
    (memberIn w'.conversations id t).map (·.standing) ≠ some r.standing →
    ∃ a, op.actor = some a ∧ c.Outranks a t
  decides : ∀ actor requestId request now,
    op = .decideGroupJoinRequest actor requestId request now →
    ∀ id t r, memberIn w.conversations id t = some r → memberIn w'.conversations id t = some r

/-- The applicant a decision admits is no member yet, or has the membership the decision makes. -/
def Op.SparesMembers (w : World) : Op → Prop
  | .decideGroupJoinRequest _ requestId request now => request.accept = true → ∀ pending r,
    w.groupJoinRequests.get requestId = some pending →
    memberIn w.conversations pending.conversationId pending.applicantId = some r →
    r = .joining pending.applicantId .member now
  | _ => True

/-- **Authority in a group is hierarchical** exactly where no decision on a join request admits
somebody who is a member already: from every reachable store, a transaction keeps to the roles if
and only if it is no such decision. -/
theorem authority_holds_iff (env : Env) (hu : Function.Injective env.uuid) (w : World)
    (hw : (service env).Reachable w) (op : Op) (w' : World) (hr : (op.run env).Runs w () w') :
    Hierarchical w op w' ↔ op.SparesMembers w := by
  have hfresh := ((placed_inductive hu).reachable hw).fresh hu
  have hone := (singleOwners_inductive env).reachable hw
  constructor
  · intro h
    cases op
    case decideGroupJoinRequest actor requestId request now =>
      intro haccept pending r hpending hmember
      have hkept := h.decides actor requestId request now rfl _ _ r hmember
      rw [decide_members hr hpending, if_pos ⟨haccept, rfl, rfl⟩] at hkept
      exact (Option.some.inj hkept).symm
    all_goals trivial
  · intro h
    -- a member who is admitted again has the same membership afterwards
    have hsame : ∀ id t r, op.Readmits w id t → memberIn w.conversations id t = some r →
        memberIn w'.conversations id t = some r := by
      intro id t r hadmits hmember
      cases op
      case decideGroupJoinRequest actor requestId request now =>
        obtain ⟨haccept, pending, hpending, rfl, rfl⟩ := hadmits
        rw [decide_members hr hpending, if_pos ⟨haccept, rfl, rfl⟩,
          h haccept pending r hpending hmember]
      all_goals cases hadmits
    constructor
    · intro id c t r hget hgroup ht hother hchanged
      have hmember : memberIn w.conversations id t = some r := by
        unfold memberIn
        rw [hget]
        exact ht
      obtain ⟨n, m, hshape, -, htouch⟩ := Op.reshaped hr
      have hchanged' := hchanged
      rw [htouch.member] at hchanged'
      rcases hshape.authority hfresh (fun actor i now he => by
        subst he
        obtain ⟨_, hr⟩ := Tx.runs_void.mp hr
        exact disbandGroup_owner hr) hone hget ht hother hchanged' with houtranks | hadmits
      · exact houtranks
      · rw [hsame id t r hadmits hmember] at hchanged
        exact absurd rfl hchanged
    · rintro actor requestId request now rfl id t r hmember
      obtain ⟨_, hr'⟩ := Tx.runs_void.mp hr
      obtain ⟨pending, hpending, -⟩ := decideGroupJoinRequest_requests hr'
      by_cases hadmits : (Op.decideGroupJoinRequest actor requestId request now).Readmits w id t
      · exact hsame id t r hadmits hmember
      · rw [decide_members hr hpending, if_neg fun hc => hadmits ⟨hc.1, pending, hpending, hc.2⟩]
        exact hmember

/-- Alice, the owner, removes Bob. -/
theorem authority_holds_removed : ∃ w w', (service Env.numbered).Reachable w ∧
    ((Op.removeGroupMember 1 11 4 0).run Env.numbered).Runs w () w' ∧
    Hierarchical w (.removeGroupMember 1 11 4 0) w' := by
  obtain ⟨w, _, w', hw, hr, -⟩ := reaches_runs Env.numbered aliceAndBob
    ((Op.removeGroupMember 1 11 4 0).run Env.numbered) (fun _ _ _ => true) (by decide +kernel)
  exact ⟨w, w', reachable_of_run hw, hr, (authority_holds_iff Env.numbered Env.numbered_injective w
    (reachable_of_run hw) _ w' hr).mpr trivial⟩

/-- Bob leaves, asks to join again and is invited meanwhile; he becomes the owner and makes Alice
an administrator. She accepts his old request, and the owner is a plain member. -/
theorem owner_readmitted : ∃ w w' c, (service Env.numbered).Reachable w ∧
    ((Op.decideGroupJoinRequest 1 18 ⟨true⟩ 0).run Env.numbered).Runs w () w' ∧
    w.conversations.get 11 = some c ∧ c.isGroup = true ∧ c.Owns 4 ∧ ¬ c.Outranks 1 4 ∧
    memberIn w'.conversations 11 4 = some (.joining 4 .member 0) ∧
    ¬ Hierarchical w (.decideGroupJoinRequest 1 18 ⟨true⟩ 0) w' := by
  obtain ⟨w, _, w', hw, hr, hp⟩ := reaches_runs Env.numbered (aliceAndBob ++
    [.leaveGroup 4 11 0, .requestToJoinGroup 4 11 ⟨""⟩ 0, .addGroupMembers 1 11 ⟨[4]⟩ 0,
      .transferGroupOwnership 1 11 ⟨4⟩ 0,
      .updateGroupMember 4 11 1 ⟨none, some .administrator, none⟩ 0])
    ((Op.decideGroupJoinRequest 1 18 ⟨true⟩ 0).run Env.numbered)
    (fun w _ w' => (w.conversations.get 11).any (fun c => c.isGroup &&
      ((c.members.get 4).any fun r => r.role == .owner) &&
      ((c.members.get 1).any fun r => r.role == .administrator)) &&
      memberIn w'.conversations 11 4 == some (.joining 4 .member 0)) (by decide +kernel)
  simp only [Bool.and_eq_true, Option.any_eq_true, beq_iff_eq] at hp
  obtain ⟨⟨c, hget, ⟨hgroup, r, hr4, hrole4⟩, r', hr1, hrole1⟩, hafter⟩ := hp
  have hranks : ¬ c.Outranks 1 4 := by
    rintro ⟨a, t, ha, ht, hlt⟩
    cases hr1.symm.trans ha
    cases hr4.symm.trans ht
    rw [hrole1, hrole4] at hlt
    exact absurd hlt (by decide)
  refine ⟨w, w', c, reachable_of_run hw, hr, hget, hgroup, ⟨r, hr4, hrole4⟩, hranks, hafter,
    fun h => ?_⟩
  have hkept := h.decides 1 18 ⟨true⟩ 0 rfl 11 4 r (by unfold memberIn; rw [hget]; exact hr4)
  cases hafter.symm.trans hkept
  cases hrole4

end IamRust
