import IamRust.L4Properties.MemberSettings

/-!
# Read positions

How far a user has read a conversation is stored twice, in the settings of the
conversation and in the read positions. `PositionStep` says what one transaction
does to the two: an admission starts the settings over and leaves the position.

* `read_positions_agree`: the two are equal and do not fall in the runs in which
  nobody with a position is admitted.
* `read_position_lost`: a member whose old join request is accepted.
-/
namespace IamRust

open Core

/-- `last_read_sequence` of the settings, or of the default ones. -/
def Store.lastRead (s : Store) (u : UserId) (id : ConversationId) : Nat :=
  ((s.conversationSettings.get (u, id)).getD (defaultConversationSettings id)).lastReadSequence

/-- The entry of the read positions, 0 when absent. -/
def Store.position (s : Store) (u : UserId) (id : ConversationId) : Nat :=
  (s.readPositions.get (u, id)).getD 0

/-- What a transaction does to the positions of a user in a conversation. -/
inductive PositionStep (w : World) (op : Op) (w' : World) (u : UserId) (id : ConversationId) : Prop
  | kept (hsettings : w'.lastRead u id = w.lastRead u id)
    (hposition : w'.position u id = w.position u id)
  | reset (hop : op.Removes u id ∨ op.Resets w u id) (hsettings : w'.lastRead u id = 0)
    (hposition : w'.position u id = w.position u id)
  | purged (hop : op.Removes u id) (hsettings : w'.lastRead u id = 0)
    (hposition : w'.position u id = 0)
  | read (n : Nat) (hmember : w.readable u id = true) (hn : n ≤ lastSequence w.toStore id)
    (hsettings : w'.lastRead u id = max (w.lastRead u id) n)
    (hposition : w'.position u id = max (w.position u id) n)
  | caughtUp (hmember : w.readable u id = true)
    (hsettings : w'.lastRead u id = lastSequence w.toStore id)
    (hposition : w'.position u id = lastSequence w.toStore id)

section
variable {env : Env} {w w' : World} {u : UserId} {id : ConversationId}

theorem position_same (h : w'.readPositions = w.readPositions) :
    w'.position u id = w.position u id := by
  unfold Store.position
  rw [h]

/-! ## One transaction -/

/-- Where no position moves, the settings decide. -/
theorem PositionStep.of_settings {op : Op}
    (h : SettingsStep w op u id (w'.settings u id)) (hposition : w'.position u id = w.position u id)
    (hread : ∀ through now, op ≠ .markRead u id through now) (hall : ∀ now, op ≠ .markAllRead u now) :
    PositionStep w op w' u id := by
  unfold Store.settings at h
  generalize hafter : (w'.conversationSettings.get (u, id)).getD _ = settings at h
  have hlast : w'.lastRead u id = settings.lastReadSequence :=
    congrArg ConversationSettings.lastReadSequence hafter
  cases h with
  | kept => exact .kept hlast hposition
  | reset hop => exact .reset hop hlast hposition
  | changed => exact .kept hlast hposition
  | read hop => exact absurd hop (hread _ _)
  | caughtUp hop => exact absurd hop (hall _)

/-- **Positions.** -/
theorem Op.positions {op : Op} (hr : (op.run env).Runs w () w') (hnamed : Named w) (u : UserId)
    (id : ConversationId) : PositionStep w op w' u id := by
  have hsettings := Op.settings hr hnamed u id
  cases op
  case deleteAccount actor currentPassword confirmation now =>
    obtain ⟨_, hr⟩ := Tx.runs_void.mp hr
    have hdeletes := deleteAccount_deletes hr
    have hposition : w'.position u id = if u = actor then 0 else w.position u id := by
      unfold Store.position
      rw [hdeletes.readPositions, Map.get_retain_key w.readPositions (·.1 != actor)]
      by_cases hu : u = actor <;> simp [hu]
    by_cases hu : u = actor
    · refine .purged hu ?_ (hposition.trans (if_pos hu))
      unfold Store.lastRead
      rw [hdeletes.conversationSettings, Map.get_retain_key w.conversationSettings (·.1 != actor)]
      simp [hu, defaultConversationSettings]
    · exact .of_settings hsettings (hposition.trans (if_neg hu)) nofun nofun
  case markRead actor i through now =>
    obtain ⟨_, hr⟩ := Tx.runs_void.mp hr
    obtain ⟨hmember, hreads⟩ := markRead_upTo hr
    by_cases hk : (u, id) = (actor, i)
    · obtain ⟨rfl, rfl⟩ := Prod.mk.inj hk
      refine .read (min through (lastSequence w.toStore id)) hmember (Nat.min_le_right _ _) ?_ ?_
      · unfold Store.lastRead
        rw [hreads.settings, Map.get_upsert, if_pos rfl]
        rfl
      · unfold Store.position
        rw [hreads.positions, Map.get_upsert, if_pos rfl]
        rfl
    · refine .of_settings hsettings ?_ (fun _ _ h => ?_) nofun
      · unfold Store.position
        rw [hreads.positions, Map.get_upsert, if_neg hk]
      · injection h with hactor hid
        exact hk (Prod.ext hactor.symm hid.symm)
  case markAllRead actor now =>
    obtain ⟨_, hr⟩ := Tx.runs_void.mp hr
    have hreads := markAllRead_all hr
    by_cases hk : ∃ i ∈ (w.conversations.values.filter (·.canRead actor)).map (·.id),
        (u, id) = (actor, i)
    · obtain ⟨i, hi, hi'⟩ := hk
      obtain ⟨rfl, rfl⟩ := Prod.mk.inj hi'
      refine .caughtUp ((mem_readable_ids hnamed).mp hi) ?_ ?_
      · unfold Store.lastRead
        rw [hreads.settings, if_pos ⟨id, hi, rfl⟩]
        rfl
      · unfold Store.position
        rw [hreads.positions, if_pos ⟨id, hi, rfl⟩]
        rfl
    · refine .kept ?_ ?_
      · exact congrArg ConversationSettings.lastReadSequence
          (settings_congr (by rw [hreads.settings, if_neg hk]))
      · unfold Store.position
        rw [hreads.positions, if_neg hk]
  all_goals
    exact .of_settings hsettings (position_same
      (Op.same (f := .readPositions) hr (by dsimp only [Op.touches]; decide))) nofun nofun

/-- A new member starts over, whatever was read before. -/
theorem Op.reset {op : Op} (hr : (op.run env).Runs w () w') (h : op.Resets w u id) :
    w'.lastRead u id = 0 ∧ w'.position u id = w.position u id := by
  refine ⟨congrArg ConversationSettings.lastReadSequence (Op.reset_settings hr h), ?_⟩
  cases op
  case addGroupMembers | decideGroupJoinRequest =>
    exact position_same (Op.same (f := .readPositions) hr (by dsimp only [Op.touches]; decide))
  all_goals exact h.elim

end

/-! ## Timelines grow -/

theorem timeline_length_posted {env : Env} {w w' : World} {m : Message} (h : Posted env w m w')
    (id : ConversationId) : (w.timeline id).length ≤ (w'.timeline id).length := by
  rw [h.timeline id]
  split
  · rw [List.length_append]
    exact Nat.le_add_right _ _
  · exact Nat.le_refl _

theorem timeline_length_storage (env : Env) (w₀ : World) : Storage env fun w =>
    ∀ id, (w₀.timeline id).length ≤ (w.timeline id).length where
  same {w w'} h hm _ _ id := by
    have hm : w'.messages = w.messages := hm
    unfold Store.timeline at h ⊢
    rw [hm]
    exact h id
  amended {w w'} h ha _ _ id := by
    refine Nat.le_trans (h id) ?_
    by_contra hlt
    have hlt := Nat.not_le.mp hlt
    have hm : w.messageAt id (w'.timeline id).length = some _ := List.getElem?_eq_getElem hlt
    obtain ⟨m', hm', -⟩ := ha.after hm
    exact absurd (List.getElem?_eq_some_iff.mp hm').1 (Nat.lt_irrefl _)
  noticed h hn id := Nat.le_trans (h id) (timeline_length_posted hn.toPosted id)
  forwarded h hr _ id := Nat.le_trans (h id) (timeline_length_posted hr.toPosted id)

theorem Op.timeline_length {env : Env} {op : Op} {w w' : World} (hr : (op.run env).Runs w () w')
    (id : ConversationId) : (w.timeline id).length ≤ (w'.timeline id).length :=
  have := timeline_length_storage env w
  Storage.step (I := fun w' => ∀ id, (w.timeline id).length ≤ (w'.timeline id).length) hr
    (fun _ _ hrec _ _ h id => Nat.le_trans (h id) (timeline_length_posted hrec.toPosted id))
    (fun _ => Nat.le_refl _) id

/-! ## The bound -/

/-- Nobody has read further than the conversation goes, or a conversation that never was. -/
structure Measured (env : Env) (w : World) : Prop where
  bounded : ∀ u id, (w.timeline id).length ≤ u64Max →
    w.lastRead u id ≤ (w.timeline id).length ∧ w.position u id ≤ (w.timeline id).length
  drawn : ∀ u id, w.lastRead u id ≠ 0 ∨ w.position u id ≠ 0 → ∃ k < w.nextUuid, id = env.uuid k

theorem Measured.step {env : Env} {op : Op} {w w' : World} (h : Measured env w)
    (hplaced : Placed env w) (htimelines : Timelines env w) (hnamed : Named w)
    (hr : (op.run env).Runs w () w') : Measured env w' := by
  refine ⟨fun u id hlen => ?_, fun u id hread => ?_⟩
  · have hgrows := Op.timeline_length hr id
    have hlen := Nat.le_trans hgrows hlen
    have hlast := htimelines.lastSequence hlen
    obtain ⟨hsettings, hposition⟩ := h.bounded u id hlen
    cases Op.positions hr hnamed u id <;> constructor <;> omega
  · have hle := ((op.evolves env).runs hr).uuids
    have hold : w.lastRead u id ≠ 0 ∨ w.position u id ≠ 0 → ∃ k < w'.nextUuid, id = env.uuid k :=
      fun hread =>
        have ⟨k, hk, hid⟩ := h.drawn u id hread
        ⟨k, Nat.lt_of_lt_of_le hk hle, hid⟩
    have hmember : w.readable u id = true → ∃ k < w'.nextUuid, id = env.uuid k := fun hmember =>
      have ⟨c, hget, _⟩ := Store.readable_iff.mp hmember
      have ⟨k, hk, hid⟩ := hplaced.drawn id c hget
      ⟨k, Nat.lt_of_lt_of_le hk hle, hid⟩
    cases Op.positions hr hnamed u id with
    | kept hsettings hposition => exact hold (by rwa [hsettings, hposition] at hread)
    | reset _ hsettings hposition =>
      rw [hsettings, hposition] at hread
      exact hold (.inr (hread.resolve_left (absurd rfl)))
    | purged _ hsettings hposition =>
      rw [hsettings, hposition] at hread
      exact absurd rfl (hread.elim (fun h => h) fun h => h)
    | read _ hread => exact hmember hread
    | caughtUp hread => exact hmember hread

theorem measured_inductive {env : Env} (hu : Function.Injective env.uuid) :
    (service env).Inductive fun w =>
      Timelines env w ∧ Placed env w ∧ Named w ∧ Measured env w where
  init w hw := by
    refine ⟨(timelines_inductive hu).init w hw, (placed_inductive hu).init w hw,
      (named_inductive env).init w hw, ?_⟩
    have hw : w = World.init := hw
    subst hw
    exact ⟨fun u id _ => ⟨Nat.zero_le _, Nat.zero_le _⟩,
      fun u id h => absurd rfl (h.elim (fun h => h) fun h => h)⟩
  step w op w' h hs := by
    obtain ⟨htimelines, hplaced, hnamed, hmeasured⟩ := h
    exact ⟨(timelines_inductive hu).step w op w' htimelines hs,
      (placed_inductive hu).step w op w' hplaced hs, (named_inductive env).step w op w' hnamed hs,
      hmeasured.step hplaced htimelines hnamed hs⟩

/-! ## The two copies -/

/-- For members the two positions are the same. -/
def Agreeing (w : World) : Prop :=
  ∀ u id, w.readable u id = true → w.lastRead u id = w.position u id

/-- Who gets the settings of a new member has no position in the conversation. -/
def Op.StartsOver (w : World) (op : Op) : Prop := ∀ u id, op.Resets w u id → w.position u id = 0

section
variable {env : Env} {op : Op} {w w' : World} {u : UserId} {id : ConversationId}

theorem Op.Resets.admits (h : op.Resets w u id) : op.Admits env w u id := by
  cases op
  case addGroupMembers => exact ⟨h.1, h.2.1⟩
  case decideGroupJoinRequest => exact h
  all_goals exact h.elim

/-- Who is admitted was a member, gets new settings, or enters a conversation that is new. -/
theorem Op.Admits.cases (h : op.Admits env w u id) :
    w.readable u id = true ∨ op.Resets w u id ∨ id = env.uuid w.nextUuid := by
  cases op
  case decideFriendRequest actor requestId decision now =>
    cases decision with
    | accept => exact .inr (.inr h.1)
    | reject => exact h.elim
  case createDirect => exact .inr (.inr h.2.1)
  case createGroup => exact .inr (.inr h.1)
  case addGroupMembers actor i request now =>
    obtain ⟨rfl, hu⟩ := h
    cases hread : w.readable u id with
    | true => exact .inl rfl
    | false => exact .inr (.inl ⟨rfl, hu, hread⟩)
  case decideGroupJoinRequest => exact .inr (.inl h)
  all_goals exact h.elim

theorem Op.Removes.not_admits (h : op.Removes u id) : ¬ op.Admits env w u id := by
  cases op <;> first | exact h.elim | exact fun hadmits => hadmits

/-- A member after the step was not removed by it. -/
theorem Op.stays (hr : (op.run env).Runs w () w')
    (hfresh : w.conversations.get (env.uuid w.nextUuid) = none)
    (hafter : w'.readable u id = true) : ¬ op.Removes u id := fun hremoves => by
  rcases (Op.readable hr hfresh).mp hafter with ⟨-, hnot⟩ | hadmits
  · exact hnot hremoves
  · exact hremoves.not_admits hadmits

theorem Agreeing.step_iff (h : Agreeing w) (hmeasured : Measured env w)
    (hu : Function.Injective env.uuid) (hplaced : Placed env w) (hnamed : Named w)
    (hr : (op.run env).Runs w () w') : Agreeing w' ↔ op.StartsOver w := by
  have hreadable : ∀ u id, w'.readable u id = true ↔ _ := fun u id =>
    Op.readable hr (hplaced.fresh hu)
  constructor
  · intro h' u id hreset
    obtain ⟨hsettings, hposition⟩ := Op.reset hr hreset
    rw [← hposition, ← h' u id ((hreadable u id).mpr (.inr hreset.admits)), hsettings]
  · intro hok u id hread
    by_cases hreset : op.Resets w u id
    · obtain ⟨hsettings, hposition⟩ := Op.reset hr hreset
      rw [hsettings, hposition, hok u id hreset]
    · have hold : w.lastRead u id = w.position u id := by
        rcases (hreadable u id).mp hread with ⟨hread, -⟩ | hadmits
        · exact h u id hread
        · rcases hadmits.cases with hread | hreset' | hid
          · exact h u id hread
          · exact absurd hreset' hreset
          · by_contra hne
            obtain ⟨k, hk, hk'⟩ := hmeasured.drawn u id (by omega)
            exact absurd (hu (hid.symm.trans hk')) (Nat.ne_of_gt hk)
      have hstays := Op.stays hr (hplaced.fresh hu) hread
      cases Op.positions hr hnamed u id with
      | kept hsettings hposition => rw [hsettings, hposition, hold]
      | reset hop => exact absurd hop (not_or.mpr ⟨hstays, hreset⟩)
      | purged hop => exact absurd hop hstays
      | read n _ _ hsettings hposition => rw [hsettings, hposition, hold]
      | caughtUp _ hsettings hposition => rw [hsettings, hposition]

/-- **Step.** The position of a member does not fall. -/
theorem Agreeing.lastRead_le (h : Agreeing w) (hmeasured : Measured env w)
    (htimelines : Timelines env w) (hu : Function.Injective env.uuid) (hplaced : Placed env w)
    (hnamed : Named w) (hok : op.StartsOver w) (hr : (op.run env).Runs w () w')
    (hlen : (w.timeline id).length ≤ u64Max) (hbefore : w.readable u id = true)
    (hafter : w'.readable u id = true) : w.lastRead u id ≤ w'.lastRead u id := by
  by_cases hreset : op.Resets w u id
  · rw [h u id hbefore, hok u id hreset]
    exact Nat.zero_le _
  · have hstays := Op.stays hr (hplaced.fresh hu) hafter
    cases Op.positions hr hnamed u id with
    | kept hsettings _ => exact Nat.le_of_eq hsettings.symm
    | reset hop => exact absurd hop (not_or.mpr ⟨hstays, hreset⟩)
    | purged hop => exact absurd hop hstays
    | read n _ _ hsettings _ =>
      rw [hsettings]
      exact Nat.le_max_left _ _
    | caughtUp _ hsettings _ =>
      rw [hsettings, htimelines.lastSequence hlen]
      exact (hmeasured.bounded u id hlen).1

end

/-! ## Main result -/

/-- The runs in which nobody who read a conversation is admitted to it again. -/
def readingService (env : Env) : LTS World Op := (service env).restrict fun w op => op.StartsOver w

theorem agreeing_inductive {env : Env} (hu : Function.Injective env.uuid) :
    (readingService env).Inductive fun w =>
      (Timelines env w ∧ Placed env w ∧ Named w ∧ Measured env w) ∧ Agreeing w where
  init w hw := by
    refine ⟨(measured_inductive hu).init w hw, fun u id _ => ?_⟩
    have hw : w = World.init := hw
    subst hw
    rfl
  step w op w' h hs := by
    obtain ⟨hok, hr⟩ := hs
    obtain ⟨⟨htimelines, hplaced, hnamed, hmeasured⟩, hagree⟩ := h
    exact ⟨(measured_inductive hu).step w op w' ⟨htimelines, hplaced, hnamed, hmeasured⟩ hr,
      (hagree.step_iff hmeasured hu hplaced hnamed hr).mpr hok⟩

/-- **Run.** While the user stays a member. -/
theorem lastRead_run {env : Env} (hu : Function.Injective env.uuid) {u : UserId}
    {id : ConversationId} {w w' : World} {ops : List Op} (hw : (readingService env).Reachable w)
    (hrun : ((readingService env).restrict fun w _ => w.readable u id = true).Run w ops w')
    (hafter : w'.readable u id = true) (hlen : (w'.timeline id).length ≤ u64Max) :
    w.lastRead u id ≤ w'.lastRead u id ∧ (w.timeline id).length ≤ u64Max := by
  induction hrun with
  | nil => exact ⟨Nat.le_refl _, hlen⟩
  | @cons w w₁ w₂ op ops hs hrest ih =>
    obtain ⟨hbefore, hok, hr⟩ := hs
    obtain ⟨hle, hlen₁⟩ := ih (hw.step ⟨hok, hr⟩) hafter hlen
    have hlen₀ := Nat.le_trans (Op.timeline_length hr id) hlen₁
    have hmember : w₁.readable u id = true := by
      cases hrest with
      | nil => exact hafter
      | cons hs _ => exact hs.1
    obtain ⟨⟨htimelines, hplaced, hnamed, hmeasured⟩, hagree⟩ :=
      (agreeing_inductive hu).reachable hw
    exact ⟨Nat.le_trans (hagree.lastRead_le hmeasured htimelines hu hplaced hnamed hok hr hlen₀
      hbefore hmember) hle, hlen₀⟩

/-- **Read positions agree and do not fall**, as long as nobody is admitted who has a position in
the conversation: the two copies are equal for members, are at most the last sequence, and in
every stretch of such a run in which the user stays a member the position only grows. A step that
breaks the condition breaks the agreement. -/
theorem read_positions_agree (env : Env) (hu : Function.Injective env.uuid) (w : World)
    (hw : (readingService env).Reachable w) :
    (∀ u id, w.readable u id = true → w.lastRead u id = w.position u id ∧
      ((w.timeline id).length ≤ u64Max → w.lastRead u id ≤ lastSequence w.toStore id)) ∧
    (∀ u id ops w',
      ((readingService env).restrict fun w _ => w.readable u id = true).Run w ops w' →
      w'.readable u id = true → (w'.timeline id).length ≤ u64Max →
      w.lastRead u id ≤ w'.lastRead u id) ∧
    ∀ (op : Op) w', (op.run env).Runs w () w' →
      ((∀ u id, w'.readable u id = true → w'.lastRead u id = w'.position u id) ↔
        op.StartsOver w) := by
  obtain ⟨⟨htimelines, hplaced, hnamed, hmeasured⟩, hagree⟩ := (agreeing_inductive hu).reachable hw
  refine ⟨fun u id hread => ⟨hagree u id hread, fun hlen => ?_⟩,
    fun u id ops w' hrun hafter hlen => (lastRead_run hu hw hrun hafter hlen).1,
    fun op w' hr => hagree.step_iff hmeasured hu hplaced hnamed hr⟩
  rw [htimelines.lastSequence hlen]
  exact (hmeasured.bounded u id hlen).1

/-- Bob reads the first of two messages. -/
theorem read_positions_agree_bob : ∃ w, (readingService Env.numbered).Reachable w ∧
    w.readable 4 11 = true ∧ w.position 4 11 = 1 ∧ w.lastRead 4 11 = w.position 4 11 := by
  obtain ⟨w, hw, hp⟩ := reaches Env.numbered (aliceAndBob ++
    [.sendMessageRequest 1 11 (.text 100 "hi") 0, .sendMessageRequest 1 11 (.text 101 "there") 0,
      .markRead 4 11 1 0]) (fun w => w.readable 4 11 && w.position 4 11 == 1) (by decide +kernel)
  obtain ⟨hread, hposition⟩ := (Bool.and_eq_true ..).mp hp
  have hrun : ((service Env.numbered).restrict fun w op => op.StartsOver w).Run World.init _ w :=
    hw.restrict fun op hop w => by
      simp only [aliceAndBob, List.cons_append, List.nil_append, List.mem_cons, List.not_mem_nil,
        or_false] at hop
      rcases hop with rfl | rfl | rfl | rfl | rfl | rfl | rfl | rfl <;> exact fun _ _ h => h.elim
  have hw : (readingService Env.numbered).Reachable w := ⟨World.init, _, rfl, hrun⟩
  exact ⟨w, hw, hread, eq_of_beq hposition,
    ((read_positions_agree Env.numbered Env.numbered_injective w hw).1 4 11 hread).1⟩

/-- Bob leaves, asks to join again, is invited meanwhile and reads what there is. Alice accepts his
request: he is a member all along, and his settings say that he read nothing. -/
theorem read_position_lost : ∃ w w', (service Env.numbered).Reachable w ∧
    ((Op.decideGroupJoinRequest 1 18 ⟨true⟩ 0).run Env.numbered).Runs w () w' ∧
    w.readable 4 11 = true ∧ w'.readable 4 11 = true ∧
    w'.lastRead 4 11 < w.lastRead 4 11 ∧ w'.lastRead 4 11 ≠ w'.position 4 11 := by
  obtain ⟨w, _, w', hw, hr, hp⟩ := reaches_runs Env.numbered (aliceAndBob ++
    [.leaveGroup 4 11 0, .requestToJoinGroup 4 11 ⟨""⟩ 0, .addGroupMembers 1 11 ⟨[4]⟩ 0,
      .markRead 4 11 9 0])
    ((Op.decideGroupJoinRequest 1 18 ⟨true⟩ 0).run Env.numbered)
    (fun w _ w' => w.readable 4 11 && w'.readable 4 11 &&
      decide (w'.lastRead 4 11 < w.lastRead 4 11) && w'.lastRead 4 11 != w'.position 4 11)
    (by decide +kernel)
  simp only [Bool.and_eq_true, decide_eq_true_eq, bne_iff_ne] at hp
  obtain ⟨⟨⟨hbefore, hafter⟩, hlt⟩, hne⟩ := hp
  exact ⟨w, w', reachable_of_run hw, hr, hbefore, hafter, hlt, hne⟩

end IamRust
