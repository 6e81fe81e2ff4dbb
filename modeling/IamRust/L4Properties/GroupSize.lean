import IamRust.L4Properties.Authority
import IamRust.L4Properties.Directory
import IamRust.L4Properties.Recipients

/-!
# The size of a group

Three operations add members. `add_group_members` refuses a list that would make
the group larger than 500; a new group and a decision on a join request have no
such check.

* `group_size_limited`: the groups stay within the limit in the runs in which no
  group starts out too large, and no applicant is admitted to a full one.
* `group_too_large`: one applicant after the other, a group outgrows it.
-/
namespace IamRust

open Core

/-- Groups have at most 500 members. -/
def Limited (w : World) : Prop :=
  ∀ id c, w.conversations.get id = some c → c.isGroup = true → c.members.len ≤ 500

/-- A group is started with at most 500 members, and an applicant is admitted to a group with
fewer. -/
def Op.KeepsLimit (w : World) : Op → Prop
  | .createGroup owner memberIds _ _ => (insert owner memberIds.toFinset).card ≤ 500
  | .decideGroupJoinRequest _ requestId request _ => request.accept = true → ∀ pending c,
    w.groupJoinRequests.get requestId = some pending →
    w.conversations.get pending.conversationId = some c →
    c.canRead pending.applicantId = true ∨ c.members.len < 500
  | _ => True

section
variable {env : Env} {w w' : World} {op : Op} {id : ConversationId} {c c' : Conversation}

theorem members_len (hget : w.conversations.get id = some c) :
    c.members.len = (w.audience id).card := by
  rw [audience_of hget, Map.len_eq_card]

/-- A conversation after the step was one of its kind before, unless it is new. -/
theorem Op.kind_before (hr : (op.run env).Runs w () w')
    (hget : w'.conversations.get id = some c') :
    (∃ c, w.conversations.get id = some c ∧ c'.isGroup = c.isGroup) ∨
      id = env.uuid w.nextUuid := by
  obtain ⟨n, m, hshape, -, htouch⟩ := Op.reshaped hr
  obtain ⟨c₁, hc₁, htime⟩ := htouch.before hget
  rw [← timeless_isGroup htime]
  exact (hshape.before hc₁).imp_right And.left

/-- The check of `add_group_members`. -/
theorem addGroupMembers_limit {actor : UserId} {request : AddGroupMembersRequest} {now : DateTime}
    (hr : ((Op.addGroupMembers actor id request now).run env).Runs w () w')
    (hget : w'.conversations.get id = some c') : c'.members.len ≤ 500 := by
  obtain ⟨n, m, hshape, -, htouch⟩ := Op.reshaped hr
  obtain ⟨_, hr⟩ := Tx.runs_void.mp hr
  unfold addGroupMembers at hr
  simp only [Tx.runs_failIf_bind, Tx.runs_get_bind, Tx.runs_okOr_bind, Tx.runs_ofExcept_bind] at hr
  obtain ⟨-, c₀, hget₀, _, -, _, -, hr⟩ := hr
  obtain ⟨_, w₁, hloop, hr⟩ := Tx.runs_bind.mp hr
  obtain rfl : w = w₁ := Tx.Keeps.runs (R := Eq) hloop
  rw [Tx.runs_failIf_bind] at hr
  obtain ⟨hlimit, -⟩ := hr
  obtain ⟨c₁, hc₁, htime⟩ := htouch.before hget
  rw [← timeless_members htime]
  cases hshape with
  | same hop => cases hop
  | invited hget =>
    cases hget₀.symm.trans hget
    rw [Map.get_insert_self] at hc₁
    cases hc₁
    exact Nat.not_lt.mp hlimit

/-- A new group is a group. -/
theorem createGroup_group {owner : UserId} {memberIds : List UserId} {name : String}
    {now : DateTime} (hr : ((Op.createGroup owner memberIds name now).run env).Runs w () w') :
    ∃ c, w'.conversations.get (env.uuid w.nextUuid) = some c ∧ c.isGroup = true := by
  obtain ⟨n, m, hshape, -, htouch⟩ := Op.reshaped hr
  cases hshape with
  | same hop => cases hop
  | founded _ hnew =>
    obtain ⟨hid, hgroup, -⟩ := Conversation.group_ok hnew
    have htime := htouch (env.uuid w.nextUuid)
    rw [hid, Map.get_insert_self, Option.map_some] at htime
    obtain ⟨c, hc, htime⟩ := Option.map_eq_some_iff.mp htime
    exact ⟨c, hc, (timeless_isGroup htime).trans hgroup⟩

/-! ## Who is in it afterwards -/

theorem audience_mono (h : ∀ u, w'.readable u id = true → w.readable u id = true) :
    (w'.audience id).card ≤ (w.audience id).card :=
  Finset.card_le_card fun u hu => Store.mem_audience.mpr (h u (Store.mem_audience.mp hu))

/-- A new group is its owner and the others of the list. -/
theorem createGroup_audience {owner : UserId} {memberIds : List UserId} {name : String}
    {now : DateTime} (hfresh : w.conversations.get (env.uuid w.nextUuid) = none)
    (hr : ((Op.createGroup owner memberIds name now).run env).Runs w () w') :
    w'.audience (env.uuid w.nextUuid) = insert owner memberIds.toFinset := by
  ext u
  rw [Store.mem_audience, Op.readable hr hfresh, Store.readable_iff]
  simp [hfresh, Op.Admits]

/-- A decision to accept adds the applicant. -/
theorem decide_audience {actor : UserId} {requestId : Uuid} {request : DecideGroupJoinRequest}
    {now : DateTime} {pending : GroupJoinRequest}
    (hfresh : w.conversations.get (env.uuid w.nextUuid) = none) (haccept : request.accept = true)
    (hpending : w.groupJoinRequests.get requestId = some pending)
    (hr : ((Op.decideGroupJoinRequest actor requestId request now).run env).Runs w () w') :
    w'.audience pending.conversationId =
      insert pending.applicantId (w.audience pending.conversationId) := by
  ext u
  rw [Store.mem_audience, Op.readable hr hfresh, Finset.mem_insert, Store.mem_audience]
  simp [Op.Removes, Op.Admits, haccept, hpending, or_comm]

theorem decide_target {actor : UserId} {requestId : Uuid} {request : DecideGroupJoinRequest}
    {now : DateTime} {pending : GroupJoinRequest}
    (hpending : w.groupJoinRequests.get requestId = some pending)
    (hr : ((Op.decideGroupJoinRequest actor requestId request now).run env).Runs w () w') :
    ∃ c, w.conversations.get pending.conversationId = some c := by
  obtain ⟨_, hr⟩ := Tx.runs_void.mp hr
  unfold decideGroupJoinRequest at hr
  simp only [Tx.runs_get_bind, Tx.runs_okOr_bind, Tx.runs_failIf_bind] at hr
  obtain ⟨_, hpending', -, c, hget, -⟩ := hr
  cases hpending.symm.trans hpending'
  exact ⟨c, hget⟩

/-! ## The step -/

/-- A group that gets no new member. -/
theorem Limited.kept (h : Limited w) (hfresh : w.conversations.get (env.uuid w.nextUuid) = none)
    (hr : (op.run env).Runs w () w') (hget : w'.conversations.get id = some c')
    (hgroup : c'.isGroup = true) (hnone : ∀ u, ¬ op.Admits env w u id) :
    c'.members.len ≤ 500 := by
  have hsub : ∀ u, w'.readable u id = true → w.readable u id = true := fun u hu =>
    (((Op.readable hr hfresh).mp hu).resolve_right (hnone u)).1
  rw [members_len hget]
  refine Nat.le_trans (audience_mono hsub) ?_
  rcases Op.kind_before hr hget with ⟨c, hc, hkind⟩ | hid
  · rw [← members_len hc]
    exact h id c hc (hkind ▸ hgroup)
  · simp [Store.audience, hid, hfresh]

/-- A new conversation of two. -/
theorem pair_limited (hfresh : w.conversations.get (env.uuid w.nextUuid) = none)
    (hr : (op.run env).Runs w () w') (hid : id = env.uuid w.nextUuid)
    (hget : w'.conversations.get id = some c') {a b : UserId}
    (hpair : ∀ u, op.Admits env w u id → u = a ∨ u = b) : c'.members.len ≤ 500 := by
  have hsub : w'.audience id ⊆ {a, b} := fun u hu => by
    rcases (Op.readable hr hfresh).mp (Store.mem_audience.mp hu) with ⟨hread, -⟩ | hu
    · obtain ⟨c, hc, -⟩ := Store.readable_iff.mp hread
      cases hfresh.symm.trans (hid ▸ hc)
    · simpa using hpair u hu
  rw [members_len hget]
  exact Nat.le_trans (Finset.card_le_card hsub) (Nat.le_trans Finset.card_le_two (by decide))

/-- The applicant is a member already, or there is room. -/
theorem Limited.decided (h : Limited w)
    (hfresh : w.conversations.get (env.uuid w.nextUuid) = none) {actor : UserId}
    {requestId : Uuid} {request : DecideGroupJoinRequest} {now : DateTime}
    (hok : (Op.decideGroupJoinRequest actor requestId request now).KeepsLimit w)
    (hr : ((Op.decideGroupJoinRequest actor requestId request now).run env).Runs w () w')
    (hget : w'.conversations.get id = some c') (hgroup : c'.isGroup = true)
    (hadmits : ∃ u, (Op.decideGroupJoinRequest actor requestId request now).Admits env w u id) :
    c'.members.len ≤ 500 := by
  obtain ⟨_, haccept, pending, hpending, rfl, -⟩ := hadmits
  obtain ⟨c, hc⟩ := decide_target hpending hr
  have hc500 : c.members.len ≤ 500 := by
    rcases Op.kind_before hr hget with ⟨c₀, hc₀, hkind⟩ | hid
    · cases hc.symm.trans hc₀
      exact h _ c hc (hkind ▸ hgroup)
    · cases hfresh.symm.trans (hid ▸ hc)
  rw [members_len hget, decide_audience hfresh haccept hpending hr]
  rcases hok haccept pending c hpending hc with hread | hroom
  · rwa [Finset.insert_eq_of_mem (Store.mem_audience.mpr (readable_of hc hread)),
      ← members_len hc]
  · refine Nat.le_trans (Finset.card_insert_le _ _) ?_
    rw [← members_len hc]
    exact hroom

/-- **Step.** -/
theorem Limited.step (h : Limited w) (hfresh : w.conversations.get (env.uuid w.nextUuid) = none)
    (hok : op.KeepsLimit w) (hr : (op.run env).Runs w () w') : Limited w' := by
  intro id c' hget hgroup
  have hkept : (∀ u, ¬ op.Admits env w u id) → c'.members.len ≤ 500 :=
    h.kept hfresh hr hget hgroup
  cases op
  case createGroup owner memberIds name now =>
    by_cases hid : id = env.uuid w.nextUuid
    · subst hid
      rw [members_len hget, createGroup_audience hfresh hr]
      exact hok
    · exact hkept fun u hadmits => hid hadmits.1
  case addGroupMembers actor conversationId request now =>
    by_cases hid : id = conversationId
    · subst hid
      exact addGroupMembers_limit hr hget
    · exact hkept fun u hadmits => hid hadmits.1
  case decideGroupJoinRequest actor requestId request now =>
    by_cases hadmits : ∃ u, (Op.decideGroupJoinRequest actor requestId request now).Admits env w
        u id
    · exact h.decided hfresh hok hr hget hgroup hadmits
    · exact hkept fun u hu => hadmits ⟨u, hu⟩
  case decideFriendRequest actor requestId decision now =>
    cases decision with
    | reject => exact hkept fun u hadmits => hadmits
    | accept =>
      cases hrequest : w.friendRequests.get requestId with
      | none =>
        refine hkept fun u hadmits => ?_
        obtain ⟨-, r, hr, -⟩ := hadmits
        cases hrequest.symm.trans hr
      | some r =>
        by_cases hid : id = env.uuid w.nextUuid
        · refine pair_limited (a := r.senderId) (b := r.recipientId) hfresh hr hid hget
            fun u hadmits => ?_
          obtain ⟨-, r', hr', hor⟩ := hadmits
          cases hrequest.symm.trans hr'
          exact hor
        · exact hkept fun u hadmits => hid hadmits.1
  case createDirect actor peer now =>
    by_cases hid : id = env.uuid w.nextUuid
    · exact pair_limited hfresh hr hid hget fun u hadmits => hadmits.2.2
    · exact hkept fun u hadmits => hid hadmits.2.1
  all_goals exact hkept fun u hadmits => hadmits

/-- The condition is needed at every step. -/
theorem Limited.step_iff (hu : Function.Injective env.uuid) (hplaced : Placed env w)
    (h : Limited w) (hr : (op.run env).Runs w () w') : Limited w' ↔ op.KeepsLimit w := by
  have hfresh := hplaced.fresh hu
  refine ⟨fun h' => ?_, fun hok => h.step hfresh hok hr⟩
  cases op
  case createGroup owner memberIds name now =>
    obtain ⟨c, hget, hgroup⟩ := createGroup_group hr
    have hlen := h' _ c hget hgroup
    rwa [members_len hget, createGroup_audience hfresh hr] at hlen
  case decideGroupJoinRequest actor requestId request now =>
    intro haccept pending c hpending hget
    have haudience := decide_audience hfresh haccept hpending hr
    by_contra hfull
    rw [not_or, Nat.not_lt] at hfull
    obtain ⟨c', hget', -⟩ := Store.readable_iff.mp
      (Store.mem_audience.mp (haudience ▸ Finset.mem_insert_self pending.applicantId _))
    have hgroup' : c'.isGroup = true := by
      rcases Op.kind_before hr hget' with ⟨c₀, hc₀, hkind⟩ | hid
      · rw [hkind]
        exact hplaced.joins _ _ _ hpending hc₀
      · cases hfresh.symm.trans (hid ▸ hget)
    have hlen := h' _ c' hget' hgroup'
    rw [members_len hget', haudience, Finset.card_insert_of_notMem ?_, ← members_len hget] at hlen
    · omega
    · rw [audience_of hget, mem_members]
      exact hfull.1
  all_goals trivial

end

/-! ## Main result -/

/-- The runs in which every step keeps to the limit. -/
def limitedService (env : Env) : LTS World Op := (service env).restrict fun w op => op.KeepsLimit w

theorem limited_inductive {env : Env} (hu : Function.Injective env.uuid) :
    (limitedService env).Inductive fun w => Placed env w ∧ Limited w where
  init w hw := by
    refine ⟨(placed_inductive hu).init w hw, fun id c hget => ?_⟩
    have hw : w = World.init := hw
    subst hw
    cases (Map.get_empty _).symm.trans hget
  step w op w' h hs :=
    ⟨(placed_inductive hu).step w op w' h.1 hs.2, h.2.step (h.1.fresh hu) hs.1 hs.2⟩

/-- **Groups stay within 500 members** in the runs in which every new group has at most 500 and no
applicant is admitted to a full one; a step from such a run that breaks the condition also breaks
the limit. -/
theorem group_size_limited (env : Env) (hu : Function.Injective env.uuid) (w : World)
    (hw : (limitedService env).Reachable w) :
    (∀ id c, w.conversations.get id = some c → c.isGroup = true → c.members.len ≤ 500) ∧
    ∀ (op : Op) w', (op.run env).Runs w () w' → (Limited w' ↔ op.KeepsLimit w) := by
  obtain ⟨hplaced, hlimited⟩ := (limited_inductive hu).reachable hw
  exact ⟨hlimited, fun op w' hr => hlimited.step_iff hu hplaced hr⟩

/-- What `Op.KeepsLimit` asks, for conversations of any kind. -/
def Op.roomy (w : World) : Op → Bool
  | .createGroup owner memberIds _ _ => decide ((insert owner memberIds.toFinset).card ≤ 500)
  | .decideGroupJoinRequest _ _ _ _ =>
    w.conversations.values.all fun c => decide (c.members.len < 500)
  | _ => true

theorem keepsLimit_of_roomy {w : World} {op : Op} (h : op.roomy w = true) : op.KeepsLimit w := by
  cases op
  case createGroup owner memberIds name now =>
    exact of_decide_eq_true (p := (insert owner memberIds.toFinset).card ≤ 500) h
  case decideGroupJoinRequest =>
    intro _ pending c _ hget
    exact .inr (of_decide_eq_true (List.all_eq_true.mp h c (Map.mem_values.mpr ⟨_, hget⟩)))
  all_goals trivial

/-- Carol joins Alice and Bob. -/
theorem group_size_limited_team : ∃ w c, (limitedService Env.numbered).Reachable w ∧
    w.conversations.get 11 = some c ∧ c.isGroup = true ∧ c.members.len = 3 ∧
    c.members.len ≤ 500 := by
  obtain ⟨w, hw, hp⟩ := reaches_checked Env.numbered (fun w op => op.roomy w)
    (fun _ _ => keepsLimit_of_roomy)
    (aliceAndBob ++ [.register carol 0, .requestToJoinGroup 14 11 ⟨""⟩ 0,
      .decideGroupJoinRequest 1 17 ⟨true⟩ 0])
    (fun w => (w.conversations.get 11).any fun c => c.isGroup && c.members.len == 3)
    (by decide +kernel)
  obtain ⟨c, hget, hc⟩ := (Option.any_eq_true ..).mp hp
  obtain ⟨hgroup, hlen⟩ := (Bool.and_eq_true ..).mp hc
  exact ⟨w, c, hw, hget, hgroup, eq_of_beq hlen,
    (group_size_limited Env.numbered Env.numbered_injective w hw).1 11 c hget hgroup⟩

/-! ## A crowd

Users register one after the other, ask to join the group of Alice and Bob and are let in. Nine
characters, `a` or `b`, tell their names apart. -/

/-- Nine binary digits. -/
def digits (n : Nat) : List Char := (List.range 9).map fun i => if n.testBit i then 'b' else 'a'

def newcomer (n : Nat) : RegisterInput := { alice with
  email := String.ofList (digits n ++ "@example.com".toList)
  username := String.ofList (digits n) }

theorem digits_chars {n : Nat} {c : Char} (h : c ∈ digits n) : c = 'a' ∨ c = 'b' := by
  obtain ⟨i, -, rfl⟩ := List.mem_map.mp h
  split
  · exact .inr rfl
  · exact .inl rfl

theorem digits_injective {m n : Nat} (hm : m < 2 ^ 9) (hn : n < 2 ^ 9)
    (h : digits m = digits n) : m = n := by
  refine Nat.eq_of_testBit_eq fun i => ?_
  by_cases hi : i < 9
  · have hget : (digits m)[i]? = (digits n)[i]? := by rw [h]
    simp only [digits, List.getElem?_map, List.getElem?_range hi, Option.map_some,
      Option.some.injEq] at hget
    cases hm' : m.testBit i <;> cases hn' : n.testBit i <;> simp_all
  · have hle : 2 ^ 9 ≤ 2 ^ i := Nat.pow_le_pow_right (by decide) (Nat.not_lt.mp hi)
    rw [Nat.testBit_lt_two_pow (Nat.lt_of_lt_of_le hm hle),
      Nat.testBit_lt_two_pow (Nat.lt_of_lt_of_le hn hle)]

theorem email_chars {n : Nat} {c : Char} (h : c ∈ digits n ++ "@example.com".toList) :
    Text.isWhitespace c = false ∧ Text.lowerChar c = c := by
  rcases List.mem_append.mp h with h | h
  · rcases digits_chars h with rfl | rfl <;> decide
  · have hall : ("@example.com".toList.all fun c =>
        decide (Text.isWhitespace c = false ∧ Text.lowerChar c = c)) = true := by decide
    exact of_decide_eq_true (List.all_eq_true.mp hall c h)

/-- A text without white space has nothing to trim. -/
theorem trim_of_no_space {s : String} (h : ∀ c ∈ s.toList, Text.isWhitespace c = false) :
    Text.trim s = s := by
  have hself : ∀ l : List Char, (∀ c ∈ l, Text.isWhitespace c = false) →
      l.dropWhile Text.isWhitespace = l := by
    intro l hl
    cases l with
    | nil => rfl
    | cons c l => rw [List.dropWhile_cons_of_neg (by simp [hl c List.mem_cons_self])]
  unfold Text.trim
  rw [hself _ h, hself _ fun c hc => h c (List.mem_reverse.mp hc), List.reverse_reverse,
    String.ofList_toList]

theorem lowercase_of_lower {s : String} (h : ∀ c ∈ s.toList, Text.lowerChar c = c) :
    Text.toAsciiLowercase s = s := by
  unfold Text.toAsciiLowercase
  rw [List.map_congr_left h, List.map_id', String.ofList_toList]

/-- The keys of a newcomer in the two indexes. -/
theorem newcomer_keys (n : Nat) :
    Text.toAsciiLowercase (Text.trim (newcomer n).email) = (newcomer n).email ∧
      Text.toAsciiLowercase (newcomer n).username = (newcomer n).username := by
  have hemail : ∀ c ∈ (newcomer n).email.toList,
      Text.isWhitespace c = false ∧ Text.lowerChar c = c := fun c hc =>
    email_chars (by simpa [newcomer] using hc)
  constructor
  · rw [trim_of_no_space fun c hc => (hemail c hc).1,
      lowercase_of_lower fun c hc => (hemail c hc).2]
  · refine lowercase_of_lower fun c hc => (email_chars (n := n) ?_).2
    exact List.mem_append_left _ (by simpa [newcomer] using hc)

theorem newcomer_injective {m n : Nat} (hm : m < 2 ^ 9) (hn : n < 2 ^ 9) :
    ((newcomer m).email = (newcomer n).email → m = n) ∧
      ((newcomer m).username = (newcomer n).username → m = n) :=
  ⟨fun h => digits_injective hm hn (List.append_cancel_right (String.ofList_injective h)),
    fun h => digits_injective hm hn (String.ofList_injective h)⟩

theorem newcomer_valid (n : Nat) : validateEmail (newcomer n).email = .ok () ∧
    validateUsername (newcomer n).username = .ok () := by
  have hlength : (digits n).length = 9 := by simp [digits]
  have hlocal : ∀ c ∈ digits n, isEmailLocal c = true ∧ Text.isAsciiAlphanumeric c = true ∧
      c ≠ '@' := fun c hc => by
    rcases digits_chars hc with rfl | rfl <;> decide
  constructor
  · have hbytes := Text.byteLen_le (newcomer n).email
    have hchars : (newcomer n).email.toList = digits n ++ '@' :: "example.com".toList :=
      String.toList_ofList
    have hmatch : matchesEmail (newcomer n).email = true := by
      unfold matchesEmail
      rw [hchars, Text.split_append fun h => (hlocal '@' h).2.2 rfl,
        Text.split_of_not_mem (by decide : '@' ∉ "example.com".toList)]
      have hall : (digits n).all isEmailLocal = true :=
        List.all_eq_true.mpr fun c hc => (hlocal c hc).1
      have hne : (digits n).isEmpty = false := by
        cases hd : digits n with
        | nil => simp [hd] at hlength
        | cons => rfl
      simp only [hall, hne]
      decide
    unfold validateEmail
    rw [if_neg]
    rw [hchars, List.length_append, hlength] at hbytes
    simp only [hmatch, Bool.true_eq_false, or_false]
    exact Nat.not_lt.mpr (Nat.le_trans hbytes (by decide))
  · have hall : (newcomer n).username.toList.all
        (fun c => Text.isAsciiAlphanumeric c || c == '_') = true :=
      List.all_eq_true.mpr fun c hc => by
        rw [(hlocal c (by simpa [newcomer] using hc)).2.1, Bool.true_or]
    have hcount : (newcomer n).username.length = 9 := by
      rw [← String.length_toList]
      simpa [newcomer] using hlength
    unfold validateUsername
    simp [hall, hcount]

/-! ## One round -/

section
variable {w w' : World}

/-- A newcomer whose keys are free is registered, with the next id. -/
theorem newcomer_registers {n : Nat} (hemail : w.byEmail.get (newcomer n).email = none)
    (husername : w.byUsername.get (newcomer n).username = none) :
    ∃ w', ((Op.register (newcomer n) 0).run Env.numbered).Runs w () w' ∧
      w'.nextUuid = w.nextUuid + 3 ∧ w'.conversations = w.conversations ∧
      w'.groupJoinRequests = w.groupJoinRequests ∧
      w'.byEmail = w.byEmail.insert (newcomer n).email (w.nextUuid + 1) ∧
      w'.byUsername = w.byUsername.insert (newcomer n).username (w.nextUuid + 1) := by
  obtain ⟨hvalid, hname⟩ := newcomer_valid n
  obtain ⟨hkey, hnameKey⟩ := newcomer_keys n
  have hrest : validatePassword Env.numbered.isUppercase Env.numbered.isLowercase alice.password =
        .ok () ∧ validateDeviceName alice.deviceName = .ok () ∧
      validateDeviceMetadata alice.platform alice.appVersion = .ok () ∧
      validateNickname alice.nickname = .ok () := by decide
  obtain ⟨hpassword, hdevice, hmeta, hnickname⟩ := hrest
  have hfree : ¬ (w.byEmail.containsKey (newcomer n).email = true ∨
      w.byUsername.containsKey (newcomer n).username = true) := by
    rw [not_or, Bool.not_eq_true, Bool.not_eq_true]
    exact ⟨Map.containsKey_eq_false.mpr hemail, Map.containsKey_eq_false.mpr husername⟩
  simp only [Op.run, Tx.runs_void, register, check_bind_runs, hkey, hnameKey,
    Tx.runs_bind (t := hashPassword Env.numbered _), Tx.runs_bind (t := newUuid Env.numbered),
    hashPassword_runs, newUuid_runs, Tx.runs_get_bind, Tx.runs_failIf_bind, update_bind_runs,
    issueSession, issueSessionInFamily_runs]
  exact ⟨_, ⟨_, hvalid, hname, hpassword, hdevice, hmeta, hnickname, _, _, ⟨rfl, rfl⟩, _, _,
    ⟨rfl, rfl⟩, _, _, ⟨rfl, rfl⟩, hfree, _, _, ⟨rfl, rfl⟩, rfl, rfl⟩,
    rfl, rfl, rfl, rfl, rfl⟩

/-- Who is no member and never asked may ask. -/
theorem request_succeeds {u : UserId} {id : ConversationId} {c : Conversation}
    (hget : w.conversations.get id = some c) (hgroup : c.isGroup = true)
    (hout : c.canRead u = false) (hnone : ∀ r ∈ w.groupJoinRequests.values, r.applicantId ≠ u) :
    ∃ w', ((Op.requestToJoinGroup u id ⟨""⟩ 0).run Env.numbered).Runs w () w' ∧
      w'.nextUuid = w.nextUuid + 2 ∧ w'.groupJoinRequests = w.groupJoinRequests.insert
        (w.nextUuid + 1) ⟨w.nextUuid + 1, id, u, "", .pending, none, 0, 0⟩ := by
  have hfirst : ¬ (w.groupJoinRequests.values.any fun joinRequest =>
      joinRequest.conversationId == id && joinRequest.applicantId == u &&
        joinRequest.status == .pending) = true := by
    intro hany
    obtain ⟨r, hr, hask⟩ := List.any_eq_true.mp hany
    simp only [Bool.and_eq_true, beq_iff_eq] at hask
    exact hnone r hr hask.1.2
  simp only [Op.run, Tx.runs_void, requestToJoinGroup, Tx.runs_get_bind, Tx.runs_okOr_bind,
    Tx.runs_failIf_bind, Tx.runs_ofExcept_bind, ensureGroup_ok,
    Tx.runs_bind (t := newUuid Env.numbered), newUuid_runs, update_bind_runs]
  refine ⟨_, ⟨_, by decide, c, hget, (), hgroup, by simp [hout], hfirst, _, _, ⟨rfl, rfl⟩,
    Tx.runs_bind.mpr ⟨(), _, appendEvent_runs.mpr rfl, Tx.runs_pure.mpr ⟨rfl, rfl⟩⟩⟩, rfl, rfl⟩

theorem notice_succeeds {id : ConversationId} {actor : UserId} {now : DateTime}
    (hsome : (w.conversations.get id).isSome = true) :
    ∃ m w', (appendSystemMessage Env.numbered id actor "一位新成员已加入群聊" now).Runs w m w' := by
  have hvalid : (MessageContent.system "一位新成员已加入群聊").validate = .ok () := by decide
  obtain ⟨c, hget⟩ := Option.isSome_iff_exists.mp hsome
  unfold appendSystemMessage
  simp only [Tx.runs_get_bind, Tx.runs_okOr_bind, hget, Option.some.injEq, exists_eq_left']
  refine Tx.exists_bind ((newUuid_runs Env.numbered).mpr ⟨rfl, rfl⟩) ?_
  refine Tx.exists_bind (sentMessage_runs.mpr ⟨hvalid, rfl, rfl⟩) ?_
  unfold pushMessage touchConversation
  simp only [update_bind_runs]
  refine Tx.exists_bind (a := ()) (appendEvent_runs.mpr rfl) ?_
  exact ⟨_, _, Tx.runs_pure.mpr ⟨rfl, rfl⟩⟩

/-- The group after a decision to accept. -/
theorem decide_admits {actor : UserId} {requestId : Uuid} {pending : GroupJoinRequest}
    {c : Conversation} {now : DateTime}
    (hpending : w.groupJoinRequests.get requestId = some pending)
    (hget : w.conversations.get pending.conversationId = some c)
    (hr : ((Op.decideGroupJoinRequest actor requestId ⟨true⟩ now).run Env.numbered).Runs w () w') :
    ∃ c', w'.conversations.get pending.conversationId = some c' ∧ c'.isGroup = c.isGroup ∧
      c'.members =
        c.members.insert pending.applicantId (.joining pending.applicantId .member now) := by
  obtain ⟨n, m, hshape, -, htouch⟩ := Op.reshaped hr
  cases hshape with
  | same hop => cases hop
  | refused haccept => cases haccept
  | admitted _ hpending' hget' _ =>
    cases hpending.symm.trans hpending'
    cases hget.symm.trans hget'
    have htime := htouch pending.conversationId
    rw [Map.get_insert_self, Option.map_some] at htime
    obtain ⟨c', hc', htime⟩ := Option.map_eq_some_iff.mp htime
    exact ⟨c', hc', (timeless_isGroup htime :), (timeless_members htime :)⟩

theorem admitApplicant_runs {id : ConversationId} {u : UserId} {now : DateTime} :
    (admitApplicant id u now).Runs w () { w with
      conversations := w.conversations.modify id fun c => { c with
        members := c.members.insert u (.joining u .member now)
        updatedAt := now }
      conversationSettings :=
        w.conversationSettings.insert (u, id) (defaultConversationSettings id) } := rfl

/-- The owner may let an applicant in. -/
theorem decide_succeeds {actor : UserId} {requestId : Uuid} {pending : GroupJoinRequest}
    {c : Conversation} {m : ConversationMember}
    (hpending : w.groupJoinRequests.get requestId = some pending)
    (hstatus : pending.status = .pending)
    (hget : w.conversations.get pending.conversationId = some c)
    (hactor : c.members.get actor = some m) (hrole : .administrator ≤ m.role) :
    ∃ w', ((Op.decideGroupJoinRequest actor requestId ⟨true⟩ 0).run Env.numbered).Runs w () w' := by
  have hfirst : ¬ pending.status ≠ .pending := not_not.mpr hstatus
  obtain ⟨_, w', hr⟩ :
      ∃ r w', (decideGroupJoinRequest Env.numbered actor requestId ⟨true⟩ 0).Runs w r w' := by
    unfold decideGroupJoinRequest
    simp only [Tx.runs_get_bind, Tx.runs_okOr_bind, Tx.runs_failIf_bind, hpending, hget, hfirst,
      Option.some.injEq, exists_eq_left', not_false_eq_true, true_and]
    refine Tx.exists_bind (a := ()) (Tx.runs_ofExcept.mpr
      ⟨requireRoleAtLeast_ok.mpr ⟨m, hactor, hrole⟩, rfl⟩) ?_
    refine Tx.exists_bind (a := ()) (Tx.runs_whenTrue.mpr (.inl ⟨rfl, admitApplicant_runs⟩)) ?_
    refine Tx.exists_bind (a := ()) (update_runs.mpr rfl) ?_
    refine Tx.exists_bind_any ?_ fun _ w₂ =>
      Tx.exists_bind (a := ()) (appendEvent_runs.mpr rfl) ⟨_, _, Tx.runs_pure.mpr ⟨rfl, rfl⟩⟩
    unfold Tx.whenTrue Tx.void
    rw [if_pos rfl]
    refine Tx.exists_bind_any (notice_succeeds ?_) fun _ _ => ⟨_, _, Tx.runs_pure.mpr ⟨rfl, rfl⟩⟩
    change ((w.conversations.modify pending.conversationId _).get _).isSome = true
    rw [Map.get_modify, if_pos rfl, hget, Option.map_some, Option.isSome_some]
  exact ⟨w', Tx.runs_void.mpr ⟨_, hr⟩⟩

end

/-- The group after `k` newcomers. Ids drawn later are nobody's yet. -/
structure Crowd (k : Nat) (w : World) : Prop where
  reachable : (service Env.numbered).Reachable w
  group : ∃ c, w.conversations.get 11 = some c ∧ c.isGroup = true ∧ k + 2 ≤ c.members.len ∧
    (∃ m, c.members.get 1 = some m ∧ .administrator ≤ m.role) ∧
    ∀ u m, c.members.get u = some m → u ≤ w.nextUuid
  applicants : ∀ r ∈ w.groupJoinRequests.values, r.applicantId ≤ w.nextUuid
  free : ∀ j, k ≤ j → j < 2 ^ 9 → w.byEmail.get (newcomer j).email = none ∧
    w.byUsername.get (newcomer j).username = none

theorem newcomer_length (n : Nat) :
    (newcomer n).email.length = 21 ∧ (newcomer n).username.length = 9 := by
  constructor
  · simp only [newcomer, String.length_ofList, List.length_append, digits, List.length_map,
      List.length_range]
    decide
  · simp [newcomer, digits]

theorem get_none_of_length {m : Map String UserId} {n : Nat} {key : String}
    (h : ∀ k ∈ m.keys, k.length ≠ n) (hkey : key.length = n) : m.get key = none := by
  cases hget : m.get key with
  | none => rfl
  | some v => exact absurd hkey (h key (Map.mem_keys.mpr ⟨v, hget⟩))

theorem crowd_zero : ∃ w, Crowd 0 w := by
  obtain ⟨w, hw, hp⟩ := reaches Env.numbered aliceAndBob (fun w =>
    ((w.conversations.get 11).any fun c : Conversation => c.isGroup && decide (2 ≤ c.members.len) &&
      (c.members.get 1).any (fun m => decide (MemberRole.administrator ≤ ConversationMember.role m)) &&
      c.members.keys.all fun u => decide (u ≤ w.nextUuid)) &&
    w.groupJoinRequests.values.all (fun r => decide (r.applicantId ≤ w.nextUuid)) &&
    w.byEmail.keys.all (fun k => decide (k.length ≠ 21)) &&
    w.byUsername.keys.all fun k => decide (k.length ≠ 9)) (by decide +kernel)
  simp only [Bool.and_eq_true, List.all_eq_true, Option.any_eq_true, decide_eq_true_eq] at hp
  obtain ⟨⟨⟨⟨c, hget, ⟨⟨hgroup, hlen⟩, howner⟩, hmembers⟩, happlicants⟩, hemail⟩, husername⟩ := hp
  refine ⟨w, reachable_of_run hw, ⟨c, hget, hgroup, hlen, howner, fun u m hu => ?_⟩, happlicants,
    fun j _ _ => ⟨?_, ?_⟩⟩
  · exact hmembers u (Map.mem_keys.mpr ⟨m, hu⟩)
  · exact get_none_of_length hemail (newcomer_length j).1
  · exact get_none_of_length husername (newcomer_length j).2

/-- One more newcomer. -/
theorem Crowd.next {k : Nat} {w : World} (h : Crowd k w) (hk : k < 2 ^ 9) :
    ∃ w', Crowd (k + 1) w' := by
  obtain ⟨c, hget, hgroup, hlen, ⟨m, hm, hrole⟩, hbound⟩ := h.group
  obtain ⟨hemail, husername⟩ := h.free k (Nat.le_refl k) hk
  obtain ⟨w₁, hregister, huuid₁, hconversations₁, hrequests₁, hemail₁, husername₁⟩ :=
    newcomer_registers hemail husername
  have hget₁ : w₁.conversations.get 11 = some c := hconversations₁ ▸ hget
  have hnone : c.members.get (w.nextUuid + 1) = none := by
    cases hu : c.members.get (w.nextUuid + 1) with
    | none => rfl
    | some m => exact absurd (hbound _ m hu) (Nat.not_succ_le_self _)
  have hout : c.canRead (w.nextUuid + 1) = false := Map.containsKey_eq_false.mpr hnone
  obtain ⟨w₂, hrequest, huuid₂, hrequests₂⟩ := request_succeeds hget₁ hgroup hout fun r hr heq =>
    Nat.not_succ_le_self _ (heq ▸ h.applicants r (hrequests₁ ▸ hr))
  have hpending : w₂.groupJoinRequests.get (w₁.nextUuid + 1) = some _ :=
    hrequests₂ ▸ Map.get_insert_self ..
  have hconversations₂ : w₂.conversations = w₁.conversations :=
    Op.same (f := .conversations) hrequest (by dsimp only [Op.touches]; decide)
  have hget₂ : w₂.conversations.get 11 = some c := hconversations₂ ▸ hget₁
  obtain ⟨w₃, hdecide⟩ := decide_succeeds hpending rfl hget₂ hm hrole
  have hkeys : ∀ f : Field, f = .byEmail ∨ f = .byUsername → w₃.field f = w₁.field f := by
    rintro f hf
    rw [Op.same (f := f) hdecide, Op.same (f := f) hrequest]
    all_goals rcases hf with rfl | rfl <;> dsimp only [Op.touches] <;> decide
  have huuid₃ : w₂.nextUuid ≤ w₃.nextUuid := ((Op.evolves Env.numbered _).runs hdecide).uuids
  have hlater : w.nextUuid + 1 ≤ w₃.nextUuid := by omega
  refine ⟨w₃, ((h.reachable.step hregister).step hrequest).step hdecide, ?_, ?_, fun j hj hlt => ?_⟩
  · obtain ⟨c', hget₃, hgroup', hmembers⟩ := decide_admits hpending hget₂ hdecide
    refine ⟨c', hget₃, hgroup' ▸ hgroup, ?_, ⟨m, ?_, hrole⟩, fun u m hu => ?_⟩
    · rw [hmembers, Map.len_insert hnone]
      omega
    · rw [hmembers, Map.get_insert_ne (Nat.ne_of_lt (Nat.lt_succ_of_le (hbound 1 m hm))), hm]
    · rw [hmembers, Map.get_insert] at hu
      split at hu
      · subst u
        exact hlater
      · exact Nat.le_trans (hbound u m hu) (Nat.le_of_succ_le hlater)
  · obtain ⟨_, hdecided⟩ := Tx.runs_void.mp hdecide
    obtain ⟨pending, hp, -, happlicant, hrequests₃⟩ := decideGroupJoinRequest_requests hdecided
    cases hpending.symm.trans hp
    intro r hr
    obtain ⟨id, hr⟩ := Map.mem_values.mp hr
    have happlicants : ∀ id r, w.groupJoinRequests.get id = some r → r.applicantId ≤ w.nextUuid :=
      fun id r hr => h.applicants r (Map.mem_values.mpr ⟨id, hr⟩)
    rw [hrequests₃, hrequests₂, hrequests₁, Map.get_insert, Map.get_insert] at hr
    split_ifs at hr
    · cases hr
      rw [happlicant]
      exact hlater
    · exact Nat.le_trans (happlicants id r hr) (Nat.le_of_succ_le hlater)
  · obtain ⟨hfreeEmail, hfreeUsername⟩ := h.free j (Nat.le_of_succ_le hj) hlt
    have hne : j ≠ k := Nat.ne_of_gt hj
    obtain ⟨hemails, husernames⟩ := newcomer_injective hlt hk
    have hkept₁ : w₃.byEmail = w₁.byEmail := hkeys .byEmail (.inl rfl)
    have hkept₂ : w₃.byUsername = w₁.byUsername := hkeys .byUsername (.inr rfl)
    rw [hkept₁, hkept₂, hemail₁, husername₁, Map.get_insert_ne fun h => hne (hemails h),
      Map.get_insert_ne fun h => hne (husernames h)]
    exact ⟨hfreeEmail, hfreeUsername⟩

theorem crowd_grows : ∀ k, k ≤ 2 ^ 9 → ∃ w, Crowd k w
  | 0, _ => crowd_zero
  | k + 1, hk => by
    obtain ⟨w, h⟩ := crowd_grows k (Nat.le_of_succ_le hk)
    exact h.next hk

/-- With 499 newcomers the group has 501 members. -/
theorem group_too_large : ∃ w id c, (service Env.numbered).Reachable w ∧
    w.conversations.get id = some c ∧ c.isGroup = true ∧ 500 < c.members.len := by
  obtain ⟨w, h⟩ := crowd_grows 499 (by decide)
  obtain ⟨c, hget, hgroup, hlen, -⟩ := h.group
  exact ⟨w, 11, c, h.reachable, hget, hgroup, hlen⟩

end IamRust
