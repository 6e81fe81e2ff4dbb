import IamRust.L3Service.System

/-!
# Group owners

Every group with a member has exactly one owner (`Governed`), through every
operation on members and roles except one: accepting a join request puts a
plain membership in place of whatever the applicant has, so an applicant who
became the owner meanwhile leaves the group without one
(`owner_lost_by_join_request`). The runs without such a step keep the invariant
(`reachable_governed`).
-/
namespace IamRust

open Core

namespace Conversation

/-- The user is a member with the role of an owner. -/
def Owns (c : Conversation) (u : UserId) : Prop :=
  ∃ m, c.members.get u = some m ∧ m.role = .owner

/-- Members are stored under their own id, and a group that has members has one owner. -/
structure Governed (c : Conversation) : Prop where
  keyed : ∀ {u m}, c.members.get u = some m → m.userId = u
  owner : c.isGroup = true → (∃ u, c.canRead u = true) → ∃! u, c.Owns u

section
variable {c c' : Conversation} {u : UserId}

theorem Owns.canRead (h : c.Owns u) : c.canRead u = true := by
  obtain ⟨m, hm, -⟩ := h
  exact Map.containsKey_iff.mpr ⟨m, hm⟩

theorem Governed.of_direct (hk : ∀ {u m}, c.members.get u = some m → m.userId = u)
    (hg : c.isGroup = false) : c.Governed := ⟨hk, fun h => absurd h (by simp [hg])⟩

/-- Nothing about the members changes. -/
theorem Governed.congr (h : c.Governed) (hm : c'.members = c.members) (hk : c'.kind = c.kind) :
    c'.Governed := by
  have hg : c'.isGroup = c.isGroup := by unfold isGroup; rw [hk]
  constructor
  · rw [hm]
    exact h.keyed
  · unfold Owns canRead
    rw [hg, hm]
    exact h.owner

/-- The members change, but not who is the owner. -/
theorem Governed.of_owns_iff (h : c.Governed) (hk : ∀ {u m}, c'.members.get u = some m →
    m.userId = u) (hg : c'.isGroup = true → c.isGroup = true)
    (hread : ∃ u, c.canRead u = true) (ho : ∀ u, c'.Owns u ↔ c.Owns u) : c'.Governed := by
  refine ⟨hk, fun hg' _ => ?_⟩
  simp only [ho]
  exact h.owner (hg hg') hread

/-- The owner, where there is one. -/
theorem Governed.owns_unique (h : c.Governed) (hg : c.isGroup = true) {u v : UserId}
    (hu : c.Owns u) (hv : c.Owns v) : u = v :=
  (h.owner hg ⟨u, hu.canRead⟩).unique hu hv

/-! ### The operations -/

theorem direct_governed {id : ConversationId} {a b : UserId} {now : DateTime}
    (h : direct id a b now = .ok c) : c.Governed := by
  unfold direct at h
  split at h
  · cases h
  · cases h
    refine .of_direct (fun {u m} hm => ?_) rfl
    simp only [List.foldl_cons, List.foldl_nil, Map.get_insert, Map.get_empty] at hm
    split at hm
    · cases hm; exact Eq.symm ‹_›
    · split at hm
      · cases hm; exact Eq.symm ‹_›
      · cases hm

theorem get_groupMembers (ownerId : UserId) (memberIds : List UserId) (now : DateTime)
    (u : UserId) : (groupMembers ownerId memberIds now).get u =
      if u = ownerId then some (.joining u .owner now)
      else if u ∈ memberIds then some (.joining u .member now) else none := by
  have h := Map.get_foldl_orInsert (fun u => ConversationMember.joining u .member now) memberIds
    (Map.empty.insert ownerId (.joining ownerId .owner now)) u
  rw [Map.get_insert, Map.get_empty] at h
  refine h.trans ?_
  split
  · subst_vars; rfl
  · rfl

theorem group_governed {id groupId : ConversationId} {ownerId : UserId} {memberIds : List UserId}
    {name : String} {now : DateTime}
    (h : group id groupId ownerId memberIds name now = .ok c) : c.Governed := by
  have hm : ∀ u, c.members.get u = if u = ownerId then some (.joining u .owner now)
      else if u ∈ memberIds then some (.joining u .member now) else none := by
    unfold group at h
    split at h
    · cases h
    split at h <;> cases h
    exact get_groupMembers ownerId memberIds now
  constructor
  · intro u m hu
    rw [hm] at hu
    split at hu
    · cases hu; rfl
    · split at hu <;> cases hu
      rfl
  · refine fun _ _ => ⟨ownerId, ⟨_, (hm ownerId).trans (if_pos rfl), rfl⟩, ?_⟩
    rintro v ⟨m, hv, hrole⟩
    rw [hm] at hv
    split at hv
    · assumption
    · split at hv <;> cases hv
      cases hrole

theorem get_addMembers (c : Conversation) (ids : List UserId) (now : DateTime) (u : UserId) :
    (c.addMembers ids now).members.get u =
      if u ∈ ids then some (.joining u .member now) else c.members.get u :=
  Map.get_foldl_insert (fun u => ConversationMember.joining u .member now) ids c.members u

/-- Plain members added beside those there are. -/
theorem Governed.addMembers (h : c.Governed) (hread : ∃ u, c.canRead u = true)
    {ids : List UserId} (hids : ∀ u ∈ ids, c.canRead u = false) (now : DateTime) :
    (c.addMembers ids now).Governed := by
  refine h.of_owns_iff (fun {u m} hm => ?_) (fun hg => hg) hread fun u => ?_
  · rw [get_addMembers] at hm
    split at hm
    · cases hm; rfl
    · exact h.keyed hm
  · unfold Owns
    rw [get_addMembers]
    split
    · have hnone : c.members.get u = none :=
        Map.containsKey_eq_false.mp (hids u ‹_›)
      simp [ConversationMember.joining, hnone]
    · exact Iff.rfl

/-- A member that is not the owner goes. -/
theorem Governed.remove (h : c.Governed) (hu : ¬ c.Owns u) (hread : ∃ u, c.canRead u = true)
    (hm : c'.members = c.members.remove u) (hk : c'.kind = c.kind) : c'.Governed := by
  have hget : ∀ v, c'.members.get v = if v = u then none else c.members.get v := fun v => by
    rw [hm, Map.get_remove]
  refine h.of_owns_iff (fun {v m} hv => ?_) (by unfold isGroup; rw [hk]; exact fun hg => hg)
    hread fun v => ?_
  · rw [hget] at hv
    split at hv
    · cases hv
    · exact h.keyed hv
  · unfold Owns
    rw [hget]
    split
    · subst_vars
      simpa [Owns] using hu
    · exact Iff.rfl

/-- A membership is written that makes nobody an owner and takes it from nobody. -/
theorem Governed.insert (h : c.Governed) (hread : ∃ u, c.canRead u = true)
    {m : ConversationMember} (hid : m.userId = u) (hrole : m.role = .owner ↔ c.Owns u)
    (hm : c'.members = c.members.insert u m) (hk : c'.kind = c.kind) : c'.Governed := by
  have hget : ∀ v, c'.members.get v = if v = u then some m else c.members.get v := fun v => by
    rw [hm, Map.get_insert]
  refine h.of_owns_iff (fun {v n} hv => ?_) (by unfold isGroup; rw [hk]; exact fun hg => hg)
    hread fun v => ?_
  · rw [hget] at hv
    split at hv
    · cases hv
      exact hid.trans (Eq.symm ‹_›)
    · exact h.keyed hv
  · by_cases hv : v = u
    · subst hv
      rw [← hrole]
      unfold Owns
      rw [hget, if_pos rfl]
      simp
    · unfold Owns
      rw [hget, if_neg hv]

theorem removeMember_governed (h : c.Governed) {actor target : UserId} {now : DateTime}
    (hr : c.removeMember actor target now = .ok c') : c'.Governed := by
  unfold removeMember at hr
  split at hr
  · cases hr
  split at hr
  · cases hr
  split at hr
  · cases hr
  · rename_i a ha _ t ht hrole
    cases hr
    refine h.remove (u := target) ?_ ⟨actor, Map.containsKey_iff.mpr ⟨a, ha⟩⟩ rfl rfl
    rintro ⟨m, hm, ho⟩
    cases ht.symm.trans hm
    exact hrole (.inl ho)

theorem transferOwnership_governed (h : c.Governed) {actor target : UserId} {now : DateTime}
    (hr : c.transferOwnership actor target now = .ok c') : c'.Governed := by
  unfold transferOwnership at hr
  split at hr
  · cases hr
  split at hr
  · cases hr
  · rename_i hactor htarget
    cases hr
    simp only [ne_eq, not_not, Option.map_eq_some_iff] at hactor
    have hown : c.Owns actor := hactor
    obtain ⟨t, ht⟩ := Map.containsKey_iff.mp (Bool.of_not_eq_false htarget)
    have hget : ∀ v, ((c.members.modify actor fun m => { m with role := .member }).modify target
        fun m => { m with role := .owner }).get v =
        if v = target then (c.members.get v).map fun m => { m with role := .owner }
        else if v = actor then (c.members.get v).map fun m => { m with role := .member }
        else c.members.get v := by
      intro v
      rw [Map.get_modify, Map.get_modify]
      split
      · split
        · rw [Option.map_map]; rfl
        · rfl
      · rfl
    constructor
    · intro v m hv
      rw [hget] at hv
      split at hv
      · obtain ⟨n, hn, rfl⟩ := Option.map_eq_some_iff.mp hv
        exact (h.keyed hn : n.userId = v)
      split at hv
      · obtain ⟨n, hn, rfl⟩ := Option.map_eq_some_iff.mp hv
        exact (h.keyed hn : n.userId = v)
      · exact h.keyed hv
    · intro hg _
      refine ⟨target, ⟨{ t with role := .owner }, ?_, rfl⟩, ?_⟩
      · rw [hget, if_pos rfl, ht]; rfl
      · rintro v ⟨m, hv, hrole⟩
        rw [hget] at hv
        -- another owner would be an owner beside the actor before
        by_contra hne
        rw [if_neg hne] at hv
        split at hv
        · obtain ⟨n, -, rfl⟩ := Option.map_eq_some_iff.mp hv
          cases hrole
        · exact absurd (h.owns_unique hg ⟨m, hv, hrole⟩ hown) ‹_›

/-! ### The owner leaves -/

/-- A fold that keeps what it has or takes the next element. -/
theorem foldl_choice {α : Type} {f : Option α → α → Option α}
    (hf : ∀ b a, f b a = some a ∨ (b.isSome = true ∧ f b a = b)) (l : List α) (b : Option α) :
    (∀ m, l.foldl f b = some m → b = some m ∨ m ∈ l) ∧ (l.foldl f b = none → b = none ∧ l = []) := by
  induction l generalizing b with
  | nil => exact ⟨fun m h => .inl h, fun h => ⟨h, rfl⟩⟩
  | cons a l ih =>
    obtain ⟨hsome, hnone⟩ := ih (f b a)
    rw [List.foldl_cons]
    constructor
    · intro m hm
      rcases hsome m hm with hb | hl
      · rcases hf b a with h | ⟨-, h⟩
        · rw [h] at hb
          exact .inr (by simp [Option.some.inj hb])
        · exact .inl (h ▸ hb)
      · exact .inr (List.mem_cons_of_mem a hl)
    · intro hm
      have hb := (hnone hm).1
      rcases hf b a with h | ⟨hb', h⟩
      · rw [h] at hb; cases hb
      · rw [h] at hb; simp [hb] at hb'

theorem foldl_choice_none {α : Type} {f : Option α → α → Option α}
    (hf : ∀ b a, f b a = some a ∨ (b.isSome = true ∧ f b a = b)) (l : List α) :
    (∀ m, l.foldl f none = some m → m ∈ l) ∧ (l.foldl f none = none → l = []) := by
  obtain ⟨hsome, hnone⟩ := foldl_choice hf l none
  refine ⟨fun m hm => ?_, fun hm => (hnone hm).2⟩
  rcases hsome m hm with h | h
  · cases h
  · exact h

theorem successor_cases (c : Conversation) (actor : UserId) :
    (∀ u, c.successor actor = some u → u ≠ actor ∧ ∃ m ∈ c.members.values, m.userId = u) ∧
    (c.successor actor = none → ∀ m ∈ c.members.values, m.userId = actor) := by
  let others := c.members.values.filter fun member => member.userId != actor
  obtain ⟨best, hbest, hsome, hnone⟩ : ∃ best, c.successor actor = best.map (·.userId) ∧
      (∀ m, best = some m → m ∈ others) ∧ (best = none → others = []) := by
    refine ⟨_, rfl, foldl_choice_none ?_ others⟩
    rintro (- | b) a
    · exact .inl rfl
    · by_cases h : b.succeeds a <;> simp [h]
  rw [hbest]
  constructor
  · intro u hu
    obtain ⟨m, hm, rfl⟩ := Option.map_eq_some_iff.mp hu
    obtain ⟨hmem, hne⟩ := List.mem_filter.mp (hsome m hm)
    exact ⟨by simpa using hne, m, hmem, rfl⟩
  · intro hu m hm
    have hnil := hnone (Option.map_eq_none_iff.mp hu)
    by_contra hne
    have : m ∈ others := List.mem_filter.mpr ⟨hm, by simpa using hne⟩
    rw [hnil] at this
    cases this

/-- The owner leaves and another member takes over. -/
theorem Governed.succeed (h : c.Governed) (hg : c.isGroup = true) {actor successor : UserId}
    (hown : c.Owns actor) (hne : successor ≠ actor) (hread : c.canRead successor = true)
    (hm : c'.members = (c.members.modify successor fun m => { m with role := .owner }).remove
      actor) : c'.Governed := by
  have hget : ∀ v, c'.members.get v = if v = actor then none
      else if v = successor then (c.members.get v).map fun m => { m with role := .owner }
      else c.members.get v := by
    intro v
    rw [hm, Map.get_remove, Map.get_modify]
  obtain ⟨m, hsucc⟩ := Map.containsKey_iff.mp hread
  constructor
  · intro v n hv
    rw [hget] at hv
    split at hv
    · cases hv
    split at hv
    · obtain ⟨n', hn', rfl⟩ := Option.map_eq_some_iff.mp hv
      exact (h.keyed hn' : n'.userId = v)
    · exact h.keyed hv
  · intro _ _
    refine ⟨successor, ⟨{ m with role := .owner }, ?_, rfl⟩, ?_⟩
    · rw [hget, if_neg hne, if_pos rfl, hsucc]; rfl
    · rintro v ⟨n, hv, hrole⟩
      rw [hget] at hv
      split at hv
      · cases hv
      split at hv
      · assumption
      · exact absurd (h.owns_unique hg ⟨n, hv, hrole⟩ hown) ‹_›

/-- The only member leaves. -/
theorem Governed.last (h : c.Governed) {actor : UserId}
    (hall : ∀ m ∈ c.members.values, m.userId = actor)
    (hm : c'.members = c.members.remove actor) : c'.Governed := by
  have hnone : ∀ v, c'.members.get v = none := by
    intro v
    rw [hm, Map.get_remove]
    split
    · rfl
    · cases hv : c.members.get v with
      | none => rfl
      | some m =>
        have := hall m (Map.mem_values.mpr ⟨v, hv⟩)
        exact absurd ((h.keyed hv).symm.trans this) ‹_›
  refine ⟨fun {v m} hv => ?_, fun _ ⟨v, hv⟩ => ?_⟩
  · rw [hnone] at hv
    cases hv
  · obtain ⟨m, hm⟩ := Map.containsKey_iff.mp hv
    rw [hnone] at hm
    cases hm

/-- A deleted account leaves: the successor of an owner is the new owner. -/
theorem Governed.detach (h : c.Governed) (actor : UserId) (now : DateTime) :
    (c.detach actor now).Governed := by
  unfold Conversation.detach
  split
  · exact h
  rename_i hread
  have hread : ∃ u, c.canRead u = true := ⟨actor, Bool.of_not_eq_false hread⟩
  by_cases howner : c.isGroup = true ∧ (c.members.get actor).map (·.role) = some .owner
  · have hown : c.Owns actor := Option.map_eq_some_iff.mp howner.2
    simp only [howner, true_and, if_true]
    cases hsuc : c.successor actor with
    | none => exact h.last ((successor_cases c actor).2 hsuc) rfl
    | some successor =>
      obtain ⟨hne, m, hm, rfl⟩ := (successor_cases c actor).1 _ hsuc
      obtain ⟨k, hk⟩ := Map.mem_values.mp hm
      refine h.succeed howner.1 hown hne ?_ rfl
      rw [h.keyed hk]
      exact Map.containsKey_iff.mpr ⟨m, hk⟩
  · simp only [howner, if_false]
    by_cases hg : c.isGroup = true
    · exact h.remove (u := actor) (fun hown => howner ⟨hg, Option.map_eq_some_iff.mpr hown⟩)
        hread rfl rfl
    · refine .of_direct (fun {v m} hv => ?_) (Bool.eq_false_iff.mpr hg)
      exact h.keyed (Map.get_of_remove hv)

end

end Conversation

/-! ## The invariant -/

/-- Every conversation is governed. -/
def Owners (w : World) : Prop := ∀ id c, w.conversations.get id = some c → c.Governed

instance owners_ignores (f : Field) [hf : Has f (accountFields ++ sessionFields ++ socialFields ++
    contentFields ++ [.conversationSettings, .groupMuteAll, .groupAnnouncements,
      .groupJoinRequests, .groupPolls, .messages, .messageDedup])] :
    Ignores (Tx.Preserving Owners) f where
  set w v h := by
    have hc : Field.conversations ≠ f := by rintro rfl; exact absurd hf.mem (by decide)
    have hsame : (w.set f v).conversations = w.conversations := same_set hc w v
    unfold Owners
    rw [hsame]
    exact h

section
variable {env : Env}

instance owners_logged : Logged env (Tx.Preserving Owners) :=
  logged_of fun {w w'} ho _ h => by
    have hsame : w'.conversations = w.conversations := ho .conversations (by decide)
    unfold Owners
    rw [hsame]
    exact h

theorem owners_update {g : World → Map ConversationId Conversation}
    (h : ∀ w, Owners w → ∀ id c, (g w).get id = some c → c.Governed) :
    Tx.Keeps (Tx.Preserving Owners) (update .conversations g) :=
  Tx.keeps_modify fun w hw => h w hw

theorem owners_insert {c : Conversation} (hc : c.Governed) (id : ConversationId) :
    Tx.Keeps (Tx.Preserving Owners)
      (update .conversations fun w => w.conversations.insert id c) := by
  refine owners_update fun w hw id' c' hget => ?_
  rw [Map.get_insert] at hget
  split at hget
  · cases hget; exact hc
  · exact hw id' c' hget

theorem owners_store {c : Conversation} (hc : c.Governed) :
    Tx.Keeps (Tx.Preserving Owners) (storeConversation c) := by
  have := owners_insert hc c.id
  unfold storeConversation; infer_instance

instance owners_touching : Touching (Tx.Preserving Owners) where
  touch id now := by
    refine owners_update fun w hw id' c' hget => ?_
    rw [Map.get_modify] at hget
    split at hget
    · obtain ⟨c, hc, rfl⟩ := Option.map_eq_some_iff.mp hget
      exact (hw id' c hc).congr rfl rfl
    · exact hw id' c' hget

/-! ### The operations that write conversations -/

set_option synthInstance.maxSize 1000000000000

variable {actor target : UserId} {conversationId : ConversationId} {now : DateTime}

instance owners_createDirect :
    Tx.Keeps (Tx.Preserving Owners) (createDirect env actor target now) := by
  unfold createDirect
  refine Tx.keeps_then inferInstance fun w => Tx.keeps_then inferInstance fun _ => ?_
  split
  · infer_instance
  · refine Tx.keeps_then inferInstance fun id => Tx.keeps_ofExcept_then fun c hc => ?_
    have := owners_store (Conversation.direct_governed (liftDomain_ok.mp hc))
    infer_instance

instance owners_befriend {request : FriendRequest} :
    Tx.Keeps (Tx.Preserving Owners) (befriend env request now) := by
  unfold befriend
  refine Tx.keeps_then inferInstance fun _ => Tx.keeps_then inferInstance fun _ =>
    Tx.keeps_then inferInstance fun _ => Tx.keeps_then inferInstance fun id =>
    Tx.keeps_ofExcept_then fun c hc => ?_
  exact owners_store (Conversation.direct_governed (liftDomain_ok.mp hc))

instance owners_decideFriendRequest {requestId : FriendRequestId}
    {decision : FriendRequestDecision} :
    Tx.Keeps (Tx.Preserving Owners) (decideFriendRequest env actor requestId decision now) := by
  unfold decideFriendRequest; infer_instance

instance owners_createGroup {memberIds : List UserId} {name : String} :
    Tx.Keeps (Tx.Preserving Owners) (createGroup env actor memberIds name now) := by
  unfold createGroup
  refine Tx.keeps_then inferInstance fun w => Tx.keeps_then inferInstance fun _ =>
    Tx.keeps_then inferInstance fun id => Tx.keeps_then inferInstance fun groupId =>
    Tx.keeps_ofExcept_then fun c hc => ?_
  have := owners_store (Conversation.group_governed (liftDomain_ok.mp hc))
  infer_instance

instance owners_updateGroup {request : UpdateGroupRequest} :
    Tx.Keeps (Tx.Preserving Owners) (updateGroup env actor conversationId request now) := by
  unfold updateGroup
  refine Tx.keeps_then inferInstance fun _ => Tx.keeps_then inferInstance fun _ =>
    Tx.keeps_get_then fun w hw => Tx.keeps_then inferInstance fun _ =>
    Tx.keeps_okOr_then fun existing he => ?_
  have := owners_insert ((hw _ _ he).congr (existing.updateGroup_members request now)
    (existing.updateGroup_kind request now)) conversationId
  infer_instance

instance owners_addGroupMembers {request : AddGroupMembersRequest} :
    Tx.Keeps (Tx.Preserving Owners) (addGroupMembers env actor conversationId request now) := by
  unfold addGroupMembers
  refine Tx.keeps_then inferInstance fun _ => Tx.keeps_get_then fun w hw =>
    Tx.keeps_okOr_then fun existing he => Tx.keeps_then inferInstance fun _ =>
    Tx.keeps_ofExcept_then fun _ hmember => ?_
  have hread : ∃ u, existing.canRead u = true := by
    refine ⟨actor, ?_⟩
    cases hm : existing.members.get actor with
    | none => simp [requireMember, hm, Except.map] at hmember
    | some m => exact Map.containsKey_iff.mpr ⟨m, hm⟩
  have hnew : ∀ u ∈ existing.newMembers request.memberIds, existing.canRead u = false :=
    fun u hu => (Conversation.mem_newMembers.mp hu).2
  have := owners_insert ((hw _ _ he).addMembers hread hnew now) conversationId
  infer_instance

instance owners_leaveGroup :
    Tx.Keeps (Tx.Preserving Owners) (leaveGroup env actor conversationId now) := by
  unfold leaveGroup
  refine Tx.keeps_get_then fun w hw => Tx.keeps_okOr_then fun existing he =>
    Tx.keeps_then inferInstance fun _ => Tx.keeps_okOr_then fun member hm =>
    Tx.keeps_failIf_then fun hrole => ?_
  have hnot : ¬ existing.Owns actor := by
    rintro ⟨m, hm', ho⟩
    cases hm.symm.trans hm'
    exact hrole ho
  have hgov : Conversation.Governed { existing with
      members := existing.members.remove actor, updatedAt := now } :=
    (hw _ _ he).remove hnot ⟨actor, Map.containsKey_iff.mpr ⟨member, hm⟩⟩ rfl rfl
  have := owners_insert hgov conversationId
  infer_instance

instance owners_disbandGroup :
    Tx.Keeps (Tx.Preserving Owners) (disbandGroup env actor conversationId now) := by
  have : Tx.Keeps (Tx.Preserving Owners)
      (update .conversations fun w => w.conversations.remove conversationId) := by
    refine owners_update fun w hw id c hget => ?_
    exact hw id c (Map.get_of_remove hget)
  unfold disbandGroup; infer_instance

/-- A change of settings the actor is allowed makes nobody an owner and takes it from nobody. -/
theorem role_apply {request : UpdateGroupMemberRequest} {member : ConversationMember}
    {actorRole : MemberRole}
    (h : request.forbidden actor target actorRole member.role = false) :
    (member.apply request).role = .owner ↔ member.role = .owner := by
  show request.role.getD member.role = .owner ↔ _
  cases hr : request.role with
  | none => rfl
  | some role =>
    simp only [UpdateGroupMemberRequest.forbidden, hr, Option.any_some, Bool.or_eq_false_iff,
      beq_eq_false_iff_ne] at h
    simp [h.1.2.1.2, h.1.2.2]

instance owners_updateGroupMember {request : UpdateGroupMemberRequest} :
    Tx.Keeps (Tx.Preserving Owners)
      (updateGroupMember env actor conversationId target request now) := by
  unfold updateGroupMember
  refine Tx.keeps_then inferInstance fun _ => Tx.keeps_get_then fun w hw =>
    Tx.keeps_okOr_then fun existing he => Tx.keeps_then inferInstance fun _ =>
    Tx.keeps_then inferInstance fun actorMember => Tx.keeps_ofExcept_then fun member hm =>
    Tx.keeps_failIf_then fun hallowed => ?_
  have hm := requireMember_ok.mp hm
  have hgov := hw _ _ he
  have hrole : (member.apply request).role = .owner ↔ existing.Owns target := by
    rw [role_apply (Bool.eq_false_iff.mpr hallowed)]
    unfold Conversation.Owns
    simp [hm]
  have hgov : Conversation.Governed { existing with
      members := existing.members.insert target (member.apply request), updatedAt := now } :=
    hgov.insert (m := member.apply request) ⟨target, Map.containsKey_iff.mpr ⟨member, hm⟩⟩
      (hgov.keyed hm : member.userId = target) hrole rfl rfl
  have := owners_insert hgov conversationId
  infer_instance

instance owners_removeGroupMember :
    Tx.Keeps (Tx.Preserving Owners) (removeGroupMember env actor conversationId target now) := by
  unfold removeGroupMember
  refine Tx.keeps_get_then fun w hw => Tx.keeps_okOr_then fun existing he =>
    Tx.keeps_then inferInstance fun _ => Tx.keeps_ofExcept_then fun c hc => ?_
  have := owners_insert (Conversation.removeMember_governed (hw _ _ he) (liftDomain_ok.mp hc))
    conversationId
  infer_instance

instance owners_transferGroupOwnership {request : TransferGroupOwnershipRequest} :
    Tx.Keeps (Tx.Preserving Owners)
      (transferGroupOwnership env actor conversationId request now) := by
  unfold transferGroupOwnership
  refine Tx.keeps_get_then fun w hw => Tx.keeps_okOr_then fun existing he =>
    Tx.keeps_then inferInstance fun _ => Tx.keeps_ofExcept_then fun c hc => ?_
  have := owners_insert
    (Conversation.transferOwnership_governed (hw _ _ he) (liftDomain_ok.mp hc)) conversationId
  infer_instance

instance owners_deleteAccount {currentPassword confirmation : String} :
    Tx.Keeps (Tx.Preserving Owners)
      (deleteAccount env actor currentPassword confirmation now) := by
  have : Tx.Keeps (Tx.Preserving Owners) (detachAccountFromConversations actor now) := by
    refine owners_update fun w hw id c hget => ?_
    rw [Map.get_mapValues, Option.map_eq_some_iff] at hget
    obtain ⟨c, hc, rfl⟩ := hget
    exact (hw id c hc).detach actor now
  unfold deleteAccount deleteAccountInStore; infer_instance

end

/-! ## Join requests -/

/-- The applicant whom a decision admits is not the owner of the group. -/
def Op.SparesOwner (w : World) : Op → Prop
  | .decideGroupJoinRequest _ requestId request _ => request.accept = true →
    ∀ pending c, w.groupJoinRequests.get requestId = some pending →
      w.conversations.get pending.conversationId = some c → ¬ c.Owns pending.applicantId
  | _ => True

section
variable {env : Env} {w w' : World}

theorem Owners.admit (h : Owners w) {id : ConversationId} {applicant : UserId} {now : DateTime}
    {c : Conversation} (hc : w.conversations.get id = some c) (hread : ∃ u, c.canRead u = true)
    (hown : ¬ c.Owns applicant) {x : Unit} (hr : (admitApplicant id applicant now).Runs w x w') :
    Owners w' := by
  simp only [admitApplicant, Tx.runs_bind, update_runs] at hr
  obtain ⟨-, -, rfl, rfl⟩ := hr
  intro id' c' hget
  replace hget : (w.conversations.modify id _).get id' = some c' := hget
  rw [Map.get_modify] at hget
  split at hget
  · subst_vars
    rw [hc] at hget
    cases hget
    exact (h _ _ hc).insert (m := .joining applicant .member now) hread rfl
      (by simp [ConversationMember.joining, hown]) rfl rfl
  · exact h id' c' hget

set_option synthInstance.maxSize 1000000000000 in
theorem Owners.decided (h : Owners w) {actor : UserId} {requestId : Uuid}
    {request : DecideGroupJoinRequest} {now : DateTime}
    (hok : (Op.decideGroupJoinRequest actor requestId request now).SparesOwner w)
    {a : GroupJoinRequest}
    (hr : (decideGroupJoinRequest env actor requestId request now).Runs w a w') : Owners w' := by
  simp only [decideGroupJoinRequest, Tx.runs_get_bind, Tx.runs_okOr_bind,
    Tx.runs_failIf_bind, Tx.runs_ofExcept_bind] at hr
  obtain ⟨pending, hp, -, c, hc, _, hrole, hr⟩ := hr
  obtain ⟨m, hm, -⟩ := requireRoleAtLeast_ok.mp hrole
  obtain ⟨_, w₁, hjoined, hr⟩ := Tx.runs_bind.mp hr
  have h₁ : Owners w₁ := by
    rcases Tx.runs_whenTrue.mp hjoined with ⟨haccept, hjoined⟩ | ⟨-, rfl⟩
    · exact h.admit hc ⟨actor, Map.containsKey_iff.mpr ⟨m, hm⟩⟩ (hok haccept pending c hp hc)
        hjoined
    · exact h
  exact Tx.Keeps.runs (R := Tx.Preserving Owners) hr h₁

set_option synthInstance.maxSize 1000000000000 in
/-- **Step.** -/
theorem Owners.step (h : Owners w) {op : Op} (hok : op.SparesOwner w)
    (hs : (op.run env).Runs w () w') : Owners w' := by
  cases op
  case decideGroupJoinRequest actor requestId request now =>
    obtain ⟨a, hr⟩ := Tx.runs_void.mp hs
    exact h.decided hok hr
  all_goals
    dsimp only [Op.run] at hs
    exact Tx.Keeps.runs (R := Tx.Preserving Owners) hs h

end

/-! ## Main result -/

/-- The runs in which no decision on a join request admits the owner of the group. -/
def sparingService (env : Env) : LTS World Op := (service env).restrict fun w op => op.SparesOwner w

theorem owners_inductive (env : Env) : (sparingService env).Inductive Owners where
  init w h := by
    subst h
    intro id c hc
    rw [show World.init.conversations.get id = none from Map.get_empty id] at hc
    cases hc
  step w op w' h hs := h.step hs.1 hs.2

/-- **One owner.** In these runs every group with a member has exactly one owner. -/
theorem group_one_owner (env : Env) (w : World) (hr : (sparingService env).Reachable w)
    (id : ConversationId) (c : Conversation) (hc : w.conversations.get id = some c)
    (hg : c.isGroup = true) (hread : ∃ u, c.canRead u = true) : ∃! u, c.Owns u :=
  ((owners_inductive env).reachable hr id c hc).owner hg hread

/-- Alice hands the group over to Bob and deletes her account. -/
theorem group_one_owner_transferred : ∃ w, ∃ c, (sparingService Env.numbered).Reachable w ∧
    w.conversations.get 11 = some c ∧ ∃! u, c.Owns u := by
  obtain ⟨w, hw, hp⟩ := reaches Env.numbered (aliceAndBob ++
    [.transferGroupOwnership 1 11 ⟨4⟩ 0, .deleteAccount 1 "Passw0rd123" "DELETE" 0])
    (fun w => (w.conversations.get 11).any fun c => c.isGroup && c.canRead 4) (by decide +kernel)
  obtain ⟨c, hc, hp⟩ := (Option.any_eq_true ..).mp hp
  obtain ⟨hg, hread⟩ := (Bool.and_eq_true ..).mp hp
  have hreach : (sparingService Env.numbered).Reachable w :=
    ⟨World.init, _, rfl, hw.restrict fun op hop w => by
      simp only [aliceAndBob, List.cons_append, List.nil_append, List.mem_cons, List.not_mem_nil,
        or_false] at hop
      rcases hop with rfl | rfl | rfl | rfl | rfl | rfl | rfl <;> trivial⟩
  exact ⟨w, c, hreach, hc, group_one_owner Env.numbered w hreach 11 c hc hg ⟨4, hread⟩⟩

/-- Bob leaves and asks to join again; Alice invites him meanwhile and hands the group over to
him. Accepting his old request leaves the group with two members and no owner. -/
theorem owner_lost_by_join_request : ∃ w c, (service Env.numbered).Reachable w ∧
    w.conversations.get 11 = some c ∧ c.isGroup = true ∧ (∃ u, c.canRead u = true) ∧
    ¬ ∃ u, c.Owns u := by
  obtain ⟨w, hw, hp⟩ := reaches Env.numbered (aliceAndBob ++
    [.leaveGroup 4 11 0, .requestToJoinGroup 4 11 ⟨""⟩ 0, .addGroupMembers 1 11 ⟨[4]⟩ 0,
      .transferGroupOwnership 1 11 ⟨4⟩ 0, .decideGroupJoinRequest 4 18 ⟨true⟩ 0])
    (fun w => (w.conversations.get 11).any fun c => c.isGroup && c.canRead 1 &&
      c.members.values.all fun m => m.role == .member) (by decide +kernel)
  obtain ⟨c, hc, hp⟩ := (Option.any_eq_true ..).mp hp
  simp only [Bool.and_eq_true, List.all_eq_true, beq_iff_eq] at hp
  obtain ⟨⟨hg, hread⟩, hroles⟩ := hp
  refine ⟨w, c, reachable_of_run hw, hc, hg, ⟨1, hread⟩, ?_⟩
  rintro ⟨u, m, hm, hrole⟩
  rw [hroles m (Map.mem_values.mpr ⟨u, hm⟩)] at hrole
  cases hrole

end IamRust
