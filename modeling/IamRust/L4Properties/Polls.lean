import IamRust.L3Service.System

/-!
# Votes

A vote takes the voter off every option and puts them behind the requested ones.
Options are compared by id, so a poll with two options of one id would count a
single choice twice: the ids of a new poll are drawn.

* `GroupPoll.votes_vote`: the options that list a user, after a vote.
* `votes_consistent`: nobody is listed twice by an option, or by two options of a
  single-choice poll, and a vote changes the votes of the voter.
-/
namespace IamRust

open Core

/-! ## A poll -/

/-- The options that list the user. -/
def GroupPoll.votes (poll : GroupPoll) (u : UserId) : List Uuid :=
  (poll.options.filter fun option => decide (u ∈ option.voterIds)).map (·.id)

structure GroupPoll.Consistent (poll : GroupPoll) : Prop where
  distinct : (poll.options.map (·.id)).Nodup
  voters : ∀ option ∈ poll.options, option.voterIds.Nodup
  single : poll.multipleChoice = false → ∀ u, (poll.votes u).length ≤ 1

section
variable {poll : GroupPoll} {actor u : UserId} {optionIds : List Uuid} {now : DateTime}

theorem GroupPoll.vote_ids : (poll.vote actor optionIds).options.map (·.id) =
    poll.options.map (·.id) := by
  unfold GroupPoll.vote
  rw [List.map_map]
  rfl

/-- Behind a vote an option lists the voter if it was requested, and the others as before. -/
theorem GroupPoll.votes_vote : (poll.vote actor optionIds).votes u =
    if u = actor then (poll.options.map (·.id)).filter (· ∈ optionIds) else poll.votes u := by
  unfold GroupPoll.votes GroupPoll.vote
  rw [List.filter_map, List.map_map, List.filter_map]
  split
  · subst_vars
    refine congrArg _ (List.filter_congr fun option _ => ?_)
    by_cases hid : option.id ∈ optionIds <;> simp [hid]
  · refine congrArg _ (List.filter_congr fun option _ => ?_)
    by_cases hid : option.id ∈ optionIds <;> simp [hid, ‹u ≠ actor›]

theorem GroupPoll.vote_voters (h : ∀ option ∈ poll.options, option.voterIds.Nodup) :
    ∀ option ∈ (poll.vote actor optionIds).options, option.voterIds.Nodup := by
  intro option hmem
  obtain ⟨old, hold, rfl⟩ := List.mem_map.mp hmem
  have hothers : (old.voterIds.filter (· != actor)).Nodup := (h old hold).filter _
  dsimp only
  split
  · refine List.Nodup.append hothers (List.nodup_singleton _) fun v hv hactor => ?_
    rw [List.mem_singleton.mp hactor] at hv
    simp at hv
  · exact hothers

theorem GroupPoll.refuses_eq_false (h : poll.refuses optionIds now = false) :
    (poll.multipleChoice = false → optionIds.length = 1) ∧
      ∀ id ∈ optionIds, id ∈ poll.options.map (·.id) := by
  unfold GroupPoll.refuses at h
  simp only [Bool.or_eq_false_iff, Bool.and_eq_false_imp, Bool.not_eq_true', bne_eq_false_iff_eq,
    List.any_eq_false, Bool.not_eq_true] at h
  obtain ⟨⟨⟨⟨-, -⟩, hsingle⟩, -⟩, hknown⟩ := h
  refine ⟨hsingle, fun id hid => ?_⟩
  have hknown : ∃ option ∈ poll.options, option.id = id := by simpa using hknown id hid
  exact List.mem_map.mpr hknown

/-- Nobody has voted yet. -/
theorem GroupPoll.consistent_new (hdistinct : (poll.options.map (·.id)).Nodup)
    (hvoters : ∀ option ∈ poll.options, option.voterIds = []) : poll.Consistent where
  distinct := hdistinct
  voters option hmem := by
    rw [hvoters option hmem]
    exact List.nodup_nil
  single _ u := by
    have hnone : poll.votes u = [] := List.map_eq_nil_iff.mpr
      (List.filter_eq_nil_iff.mpr fun option hmem => by simp [hvoters option hmem])
    rw [hnone]
    exact Nat.zero_le _

/-- **Vote.** -/
theorem GroupPoll.Consistent.vote (h : poll.Consistent) (hok : poll.refuses optionIds now = false) :
    (poll.vote actor optionIds).Consistent where
  distinct := by
    rw [GroupPoll.vote_ids]
    exact h.distinct
  voters := GroupPoll.vote_voters h.voters
  single hsingle u := by
    rw [GroupPoll.votes_vote]
    split
    · -- the ids are distinct, and one is requested
      obtain ⟨id, hid⟩ := List.length_eq_one_iff.mp ((GroupPoll.refuses_eq_false hok).1 hsingle)
      rw [← List.countP_eq_length_filter, hid]
      have hcount := List.nodup_iff_count_le_one.mp h.distinct id
      rw [List.count] at hcount
      refine Nat.le_trans (Nat.le_of_eq (List.countP_congr fun x _ => ?_)) hcount
      simp
    · exact h.single hsingle u

end

/-! ## Runs -/

/-- The polls are consistent. -/
def World.PollsConsistent (w : World) : Prop :=
  ∀ id poll, w.groupPolls.get id = some poll → poll.Consistent

section
variable {env : Env} {w w' : World} {actor : UserId} {now : DateTime}

/-- The options of a new poll: drawn one after the other, and nobody has voted. -/
theorem newOptions_runs {labels : List String} {options : List GroupPollOption}
    (h : (Tx.mapEach labels fun label => do
      let optionId ← newUuid env
      pure (⟨optionId, label, []⟩ : GroupPollOption)).Runs w options w') :
    w'.groupPolls = w.groupPolls ∧ (∀ option ∈ options, option.voterIds = []) ∧
      options.map (·.id) = (List.range' w.nextUuid labels.length).map env.uuid := by
  induction labels generalizing w options with
  | nil =>
    obtain ⟨rfl, rfl⟩ := Tx.runs_pure.mp h
    exact ⟨rfl, nofun, rfl⟩
  | cons label labels ih =>
    simp only [Tx.mapEach, Tx.runs_bind, newUuid_runs, Tx.runs_pure] at h
    obtain ⟨_, _, ⟨_, _, ⟨rfl, rfl⟩, rfl, rfl⟩, rest, _, hrest, rfl, rfl⟩ := h
    obtain ⟨hpolls, hvoters, hids⟩ := ih hrest
    refine ⟨hpolls, fun option hmem => ?_, ?_⟩
    · rcases List.mem_cons.mp hmem with rfl | hmem
      · rfl
      · exact hvoters option hmem
    · rw [List.map_cons, hids]
      rfl

theorem createGroupPoll_runs {id : ConversationId} {request : CreateGroupPollRequest}
    {poll : GroupPoll} (hu : Function.Injective env.uuid)
    (h : (createGroupPoll env actor id request now).Runs w poll w') :
    poll.Consistent ∧ w'.groupPolls = w.groupPolls.insert poll.id poll := by
  unfold createGroupPoll at h
  simp only [Tx.runs_failIf_bind, Tx.runs_get_bind, Tx.runs_okOr_bind, Tx.runs_ofExcept_bind,
    Tx.runs_bind (t := newUuid env), newUuid_runs] at h
  obtain ⟨-, c, -, _, -, _, -, _, _, ⟨rfl, rfl⟩, h⟩ := h
  obtain ⟨options, w₁, hoptions, h⟩ := Tx.runs_bind.mp h
  obtain ⟨hpolls, hvoters, hids⟩ := newOptions_runs hoptions
  rw [update_bind_runs] at h
  have hrest := (Tx.Keeps.runs (R := Evolves [.messages, .conversations]) h).same .groupPolls
    (by decide)
  obtain ⟨_, _, -, h⟩ := Tx.runs_bind.mp h
  obtain ⟨_, _, -, h⟩ := Tx.runs_bind.mp h
  obtain ⟨rfl, -⟩ := Tx.runs_pure.mp h
  refine ⟨GroupPoll.consistent_new ?_ hvoters, ?_⟩
  · dsimp only
    rw [hids]
    exact List.Nodup.map hu List.nodup_range'
  · rw [show w'.groupPolls = _ from hrest]
    show w₁.groupPolls.insert _ _ = _
    rw [hpolls]
    rfl

theorem voteGroupPoll_runs {pollId : Uuid} {request : VoteGroupPollRequest} {poll : GroupPoll}
    (h : (voteGroupPoll env actor pollId request now).Runs w poll w') :
    ∃ existing, w.groupPolls.get pollId = some existing ∧
      existing.refuses request.optionIds now = false ∧
      poll = existing.vote actor request.optionIds ∧
      w'.groupPolls = w.groupPolls.insert pollId poll := by
  unfold voteGroupPoll at h
  simp only [Tx.runs_failIf_bind, Tx.runs_get_bind, Tx.runs_okOr_bind, Tx.runs_ofExcept_bind,
    update_bind_runs, Bool.not_eq_true] at h
  obtain ⟨existing, hget, c, -, _, -, hok, h⟩ := h
  have hrest := (Tx.Keeps.runs (R := Evolves []) h).same .groupPolls (by decide)
  obtain ⟨_, _, -, h⟩ := Tx.runs_bind.mp h
  obtain ⟨rfl, -⟩ := Tx.runs_pure.mp h
  exact ⟨existing, hget, hok, rfl, hrest⟩

theorem World.PollsConsistent.insert (h : w.PollsConsistent) {id : Uuid} {poll : GroupPoll}
    (hpoll : poll.Consistent) (hpolls : w'.groupPolls = w.groupPolls.insert id poll) :
    w'.PollsConsistent := by
  intro i p hget
  rw [hpolls, Map.get_insert] at hget
  split at hget
  · cases hget
    exact hpoll
  · exact h i p hget

theorem pollsConsistent_inductive (hu : Function.Injective env.uuid) :
    (service env).Inductive World.PollsConsistent where
  init w hw id poll hget := by
    have hw : w = World.init := hw
    subst hw
    cases (Map.get_empty _).symm.trans hget
  step w op w' h hr := by
    replace hr : (op.run env).Runs w () w' := hr
    cases op
    case createGroupPoll =>
      obtain ⟨poll, hr⟩ := Tx.runs_void.mp hr
      obtain ⟨hpoll, hpolls⟩ := createGroupPoll_runs hu hr
      exact h.insert hpoll hpolls
    case voteGroupPoll =>
      obtain ⟨poll, hr⟩ := Tx.runs_void.mp hr
      obtain ⟨existing, hget, hok, rfl, hpolls⟩ := voteGroupPoll_runs hr
      exact h.insert ((h _ existing hget).vote hok) hpolls
    all_goals
      have hsame : w'.groupPolls = w.groupPolls :=
        Op.same (f := .groupPolls) hr (by dsimp only [Op.touches]; decide)
      exact fun id poll hget => h id poll (hsame ▸ hget)

end

/-! ## Main result -/

/-- **Votes are consistent.** In every run, every poll; behind a successful vote the options that
list the voter are the requested ones and everybody else's votes and every other poll are as they
were, and behind a failed one everything is. -/
theorem votes_consistent (env : Env) (hu : Function.Injective env.uuid) (w : World)
    (hw : (service env).Reachable w) :
    (∀ id poll, w.groupPolls.get id = some poll → poll.Consistent) ∧
    ∀ actor pollId request now,
      (∀ e, ((voteGroupPoll env actor pollId request now).commit w).1 = .error e →
        ((voteGroupPoll env actor pollId request now).commit w).2 = w) ∧
      ∀ poll w', (voteGroupPoll env actor pollId request now).Runs w poll w' →
        ∃ existing, w.groupPolls.get pollId = some existing ∧
          w'.groupPolls = w.groupPolls.insert pollId poll ∧
          (∀ id, id ∈ poll.votes actor ↔ id ∈ request.optionIds) ∧
          ∀ v, v ≠ actor → poll.votes v = existing.votes v := by
  refine ⟨(pollsConsistent_inductive hu).reachable hw, fun actor pollId request now =>
    ⟨fun e he => ?_, fun poll w' hr => ?_⟩⟩
  · rcases (voteGroupPoll env actor pollId request now).commit_cases w with
      ⟨_, _, -, hcommit⟩ | ⟨_, hcommit⟩
    · rw [hcommit] at he
      cases he
    · rw [hcommit]
  · obtain ⟨existing, hget, hok, rfl, hpolls⟩ := voteGroupPoll_runs hr
    refine ⟨existing, hget, hpolls, fun id => ?_, fun v hv => ?_⟩
    · rw [GroupPoll.votes_vote, if_pos rfl, List.mem_filter, decide_eq_true_eq]
      exact ⟨fun h => h.2, fun h => ⟨(GroupPoll.refuses_eq_false hok).2 id h, h⟩⟩
    · rw [GroupPoll.votes_vote, if_neg hv]

/-- Bob, user 4, votes for the second option of Alice's poll, the option that is named twice in
his request listing him once. -/
theorem votes_consistent_bob : ∃ w poll, (service Env.numbered).Reachable w ∧
    w.groupPolls.get 14 = some poll ∧ poll.votes 4 = [16] ∧
    ∀ option ∈ poll.options, option.voterIds.Nodup := by
  have h := reaches Env.numbered (aliceAndBob ++
    [.createGroupPoll 1 11 ⟨"Lunch?", ["Yes", "No"], true, none⟩ 0,
      .voteGroupPoll 4 14 ⟨[16, 16]⟩ 0])
    (fun w : World => (w.groupPolls.get 14).any fun poll => decide (poll.votes 4 = [16]))
    (by decide +kernel)
  obtain ⟨w, hw, hp⟩ := h
  obtain ⟨poll, hget, hvotes⟩ := (Option.any_eq_true ..).mp hp
  have hreach := reachable_of_run hw
  exact ⟨w, poll, hreach, hget, of_decide_eq_true hvotes,
    ((votes_consistent Env.numbered Env.numbered_injective w hreach).1 14 poll hget).voters⟩

end IamRust
