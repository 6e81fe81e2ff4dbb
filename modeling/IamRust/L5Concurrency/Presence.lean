import IamRust.L3Service.Signals
import IamRust.L4Properties.Profiles
import Mathlib.Data.Set.Card

/-!
# Connections and presence

`connection_opened` and `connection_closed` change the counter under one lock and
the stored presence in a transaction of its own. In between the calls of other
sockets run, the database can refuse the transaction, and the process can stop and
start again from the last store.

* `presence_follows`: the counter is the number of the user's sockets, and the
  stored presence follows it, if a closing call writes while nobody has come back,
  a failed opening call forgets nobody else, and the process stops when all are
  offline.
* `presence_left_behind`: what happens otherwise.
-/
namespace IamRust

open Core

/-! ## The calls -/

/-- Where a socket is. The flags say whether the call sets the presence. -/
inductive SocketTask where
  | idle
  | counted (user : UserId) (first : Bool)
  | refused (user : UserId)
  | opened (user : UserId)
  | uncounted (user : UserId) (last : Bool)
  deriving DecidableEq

/-- The store, the counters and the sockets. -/
structure Presences (ι : Type) where
  world : World
  connections : Connections
  sockets : ι → SocketTask

/-- `stored`: the database takes the transaction. -/
inductive PresenceStep (ι : Type) where
  | transaction (op : Op)
  | count (i : ι) (user : UserId)
  | greet (i : ι) (now : DateTime) (stored : Bool)
  | giveUp (i : ι)
  | uncount (i : ι)
  | leave (i : ι) (now : DateTime) (stored : Bool)
  | restart

/-- The transactions that set a presence, or what is preferred. -/
def Op.writesPresence : Op → Bool
  | .register _ _ | .loginWithSecondFactor _ _ _ | .setConnectionPresence _ _ _
  | .updateProfile _ _ _ _ | .deleteAccount _ _ _ _ => true
  | _ => false

def World.presence (w : World) (u : UserId) : Option Presence :=
  (w.accounts.get u).map (·.profile.presence)

/-- mirrors crates/application/src/service.rs:639-643 -/
def World.prefers (w : World) (u : UserId) : Presence := (w.preferredPresence.get u).getD .online

/-- The presence stored is offline. -/
def World.Offline (w : World) (u : UserId) : Prop := ∀ p ∈ w.presence u, p = .offline

/-- The presence update, if it is made. -/
def World.setPresence (env : Env) (w : World) (u : UserId) (connected : Bool) (now : DateTime)
    (stored : Bool) : Option World :=
  match setConnectionPresence env u connected now w with
  | .error _ => none
  | .ok (_, w') => if stored then some w' else none

section
variable {ι : Type} [DecidableEq ι] (env : Env)

def Presences.at (x : Presences ι) (i : ι) (t : SocketTask) : Presences ι :=
  { x with sockets := Function.update x.sockets i t }

/-- mirrors crates/application/src/service.rs:364-388, 587-630 -/
def Presences.step (x : Presences ι) : PresenceStep ι → Option (Presences ι)
  | .transaction op =>
    if op.writesPresence then none
    else
      match op.run env x.world with
      | .error _ => none
      | .ok (_, world) => some { x with world := world }
  | .count i user =>
    match x.sockets i with
    | .idle =>
      let counted := countConnection user x.connections
      some ({ x with connections := counted.2 }.at i (.counted user counted.1))
    | _ => none
  | .greet i now stored =>
    match x.sockets i with
    | .counted user false => some (x.at i (.opened user))
    | .counted user true =>
      match x.world.setPresence env user true now stored with
      | none => some (x.at i (.refused user))
      | some world => some ({ x with world := world }.at i (.opened user))
    | _ => none
  | .giveUp i =>
    match x.sockets i with
    | .refused user =>
      some ({ x with connections := x.connections.remove user }.at i .idle)
    | _ => none
  | .uncount i =>
    match x.sockets i with
    | .opened user =>
      let uncounted := uncountConnection user x.connections
      some ({ x with connections := uncounted.2 }.at i (.uncounted user uncounted.1))
    | _ => none
  | .leave i now stored =>
    match x.sockets i with
    | .uncounted _ false => some (x.at i .idle)
    | .uncounted user true =>
      some ({ x with world := (x.world.setPresence env user false now stored).getD x.world }.at i
        .idle)
    | _ => none
  | .restart => some { x with connections := .empty, sockets := fun _ => .idle }

end

/-- A server that has just started, with everybody offline. -/
def presences (ι : Type) [DecidableEq ι] (env : Env) : LTS (Presences ι) (PresenceStep ι) where
  init x := (service env).Reachable x.world ∧ x.connections = .empty ∧
    (∀ i, x.sockets i = .idle) ∧ ∀ u, x.world.Offline u
  step x l x' := x.step env l = some x'

/-! ## What a step does -/

/-- The steps, by what they find. -/
inductive Presenting {ι : Type} [DecidableEq ι] (env : Env) (x : Presences ι) :
    PresenceStep ι → Presences ι → Prop where
  | ran {w'} (op : Op) (hop : op.writesPresence = false) (hrun : (op.run env).Runs x.world () w') :
    Presenting env x (.transaction op) { x with world := w' }
  | counted {i u} (hi : x.sockets i = .idle) : Presenting env x (.count i u)
    (Presences.at { x with connections := (countConnection u x.connections).2 } i
      (.counted u (countConnection u x.connections).1))
  | joined {i now stored u} (hi : x.sockets i = .counted u false) :
    Presenting env x (.greet i now stored) (x.at i (.opened u))
  | greeted {i now stored u w'} (hi : x.sockets i = .counted u true)
    (hset : x.world.setPresence env u true now stored = some w') :
    Presenting env x (.greet i now stored) (Presences.at { x with world := w' } i (.opened u))
  | refused {i now stored u} (hi : x.sockets i = .counted u true) :
    Presenting env x (.greet i now stored) (x.at i (.refused u))
  | gaveUp {i u} (hi : x.sockets i = .refused u) : Presenting env x (.giveUp i)
    (Presences.at { x with connections := x.connections.remove u } i .idle)
  | uncounted {i u} (hi : x.sockets i = .opened u) : Presenting env x (.uncount i)
    (Presences.at { x with connections := (uncountConnection u x.connections).2 } i
      (.uncounted u (uncountConnection u x.connections).1))
  | stayed {i now stored u} (hi : x.sockets i = .uncounted u false) :
    Presenting env x (.leave i now stored) (x.at i .idle)
  | left {i now stored u w'} (hi : x.sockets i = .uncounted u true)
    (hset : x.world.setPresence env u false now stored = some w') :
    Presenting env x (.leave i now stored) (Presences.at { x with world := w' } i .idle)
  | unset {i now stored u} (hi : x.sockets i = .uncounted u true)
    (hset : x.world.setPresence env u false now stored = none) :
    Presenting env x (.leave i now stored) (x.at i .idle)
  | restarted : Presenting env x .restart { x with connections := .empty, sockets := fun _ => .idle }

section
variable {ι : Type} [DecidableEq ι] {env : Env} {x x' : Presences ι} {l : PresenceStep ι}

theorem Presences.step_cases (h : x.step env l = some x') : Presenting env x l x' := by
  cases l with
  | transaction op =>
    dsimp only [Presences.step] at h
    split at h
    · cases h
    rename_i hop
    split at h <;> cases h
    exact .ran op (Bool.of_not_eq_true hop) ‹_›
  | count i u =>
    dsimp only [Presences.step] at h
    split at h <;> cases h
    exact .counted ‹_›
  | greet i now stored =>
    dsimp only [Presences.step] at h
    split at h
    · cases h
      exact .joined ‹_›
    · split at h
      · cases h
        exact .refused ‹_›
      · cases h
        exact .greeted ‹_› ‹_›
    · cases h
  | giveUp i =>
    dsimp only [Presences.step] at h
    split at h <;> cases h
    exact .gaveUp ‹_›
  | uncount i =>
    dsimp only [Presences.step] at h
    split at h <;> cases h
    exact .uncounted ‹_›
  | leave i now stored =>
    dsimp only [Presences.step] at h
    split at h
    · cases h
      exact .stayed ‹_›
    · rename_i user hi
      cases h
      cases hset : x.world.setPresence env user false now stored with
      | none => exact .unset hi hset
      | some w' => exact .left hi hset
    · cases h
  | restart =>
    cases h
    exact .restarted

/-! ## The counters -/

/-- Whom the socket counts for. -/
def SocketTask.holder : SocketTask → Option UserId
  | .counted user _ | .refused user | .opened user => some user
  | .idle | .uncounted _ _ => none

/-- The sockets that count for the user. -/
def Presences.counting (x : Presences ι) (u : UserId) : Set ι :=
  {i | (x.sockets i).holder = some u}

/-- The counters count. -/
structure Presences.Counted (x : Presences ι) : Prop where
  finite : ∀ u, (x.counting u).Finite
  counter : ∀ u, (x.connections.get u).getD 0 = (x.counting u).ncard
  positive : ∀ u, x.connections.get u ≠ some 0

theorem counting_at (x : Presences ι) (i : ι) (t : SocketTask) (u : UserId) :
    (x.at i t).counting u =
      if t.holder = some u then insert i (x.counting u) else x.counting u \ {i} := by
  ext j
  by_cases hj : j = i
  · subst hj
    split <;> simp [Presences.counting, Presences.at, *]
  · split <;> simp [Presences.counting, Presences.at, hj]

theorem counting_at_same {i : ι} {t : SocketTask} (h : t.holder = (x.sockets i).holder)
    (u : UserId) : (x.at i t).counting u = x.counting u := by
  rw [counting_at]
  split
  · exact Set.insert_eq_of_mem (h.symm.trans ‹_›)
  · exact Set.sdiff_singleton_eq_self fun hmem => absurd (h.trans hmem) ‹_›

variable {i : ι} {u v : UserId} {t : SocketTask} {connections : Connections} {world : World}

omit [DecidableEq ι] in
theorem Presences.Counted.start (hconnections : x.connections = .empty)
    (hidle : ∀ i, x.sockets i = .idle) : x.Counted := by
  have hempty : ∀ u, x.counting u = ∅ := fun u => Set.eq_empty_of_forall_notMem fun i hi => by
    cases (congrArg SocketTask.holder (hidle i)).symm.trans hi
  refine ⟨fun u => ?_, fun u => ?_, fun u => ?_⟩
  · rw [hempty]
    exact Set.finite_empty
  · rw [hempty, Set.ncard_empty, hconnections, Map.get_empty]
    rfl
  · rw [hconnections, Map.get_empty]
    nofun

omit [DecidableEq ι] in
/-- A counter that counts somebody is there. -/
theorem Presences.Counted.get_of_mem (h : x.Counted) (hmem : i ∈ x.counting u) :
    ∃ n, x.connections.get u = some (n + 1) ∧ (x.counting u).ncard = n + 1 := by
  have hcounter := h.counter u
  have hpos : 0 < (x.counting u).ncard := (Set.ncard_pos (h.finite u)).mpr ⟨i, hmem⟩
  obtain ⟨n, hn⟩ := Nat.exists_eq_succ_of_ne_zero hpos.ne'
  cases hget : x.connections.get u with
  | none =>
    rw [hget, Option.getD_none] at hcounter
    omega
  | some m =>
    rw [hget, Option.getD_some] at hcounter
    exact ⟨n, by rw [hcounter, hn], hn⟩

theorem Presences.Counted.same (h : x.Counted) (ht : t.holder = (x.sockets i).holder) :
    (Presences.at { x with world := world } i t).Counted where
  finite u := counting_at_same (x := x) ht u ▸ h.finite u
  counter u := counting_at_same (x := x) ht u ▸ h.counter u
  positive := h.positive

/-- One more socket, one more on the counter. -/
theorem Presences.Counted.add (h : x.Counted) (hi : (x.sockets i).holder = none)
    (ht : t.holder = some u) (hself : connections.get u = some ((x.connections.get u).getD 0 + 1))
    (hother : ∀ v, v ≠ u → connections.get v = x.connections.get v) :
    (Presences.at { x with connections := connections } i t).Counted := by
  have hset : ∀ v, (Presences.at { x with connections := connections } i t).counting v =
      if v = u then insert i (x.counting v) else x.counting v := fun v => by
    have hnot : i ∉ x.counting v := fun hmem => by cases hi.symm.trans hmem
    refine (counting_at (x := { x with connections := connections }) i t v).trans ?_
    rw [ht]
    split
    · rw [if_pos (Option.some.inj ‹_›).symm]
      rfl
    · rw [if_neg fun hv => absurd (congrArg some hv.symm) ‹_›]
      exact Set.sdiff_singleton_eq_self hnot
  refine ⟨fun v => ?_, fun v => ?_, fun v => ?_⟩
  · rw [hset]
    split
    · exact (h.finite v).insert i
    · exact h.finite v
  · rw [hset]
    show (connections.get v).getD 0 = _
    split
    · rename_i hv
      subst hv
      have hnot : i ∉ x.counting v := fun hmem => by cases hi.symm.trans hmem
      rw [Set.ncard_insert_of_notMem hnot (h.finite v), hself, Option.getD_some, h.counter]
    · rw [hother v ‹_›, h.counter]
  · show connections.get v ≠ some 0
    by_cases hv : v = u
    · subst hv
      simp [hself]
    · exact hother v hv ▸ h.positive v

/-- One socket less, one less on the counter. -/
theorem Presences.Counted.drop (h : x.Counted) (hi : (x.sockets i).holder = some u)
    (ht : t.holder = none)
    (hself : (connections.get u).getD 0 = (x.connections.get u).getD 0 - 1)
    (hpos : connections.get u ≠ some 0)
    (hother : ∀ v, v ≠ u → connections.get v = x.connections.get v) :
    (Presences.at { x with connections := connections } i t).Counted := by
  have hset : ∀ v, (Presences.at { x with connections := connections } i t).counting v =
      x.counting v \ {i} := fun v => by
    refine (counting_at (x := { x with connections := connections }) i t v).trans ?_
    rw [ht]
    exact if_neg nofun
  refine ⟨fun v => ?_, fun v => ?_, fun v => ?_⟩
  · rw [hset]
    exact (h.finite v).sdiff
  · rw [hset]
    show (connections.get v).getD 0 = _
    by_cases hv : v = u
    · subst hv
      have hmem : i ∈ x.counting v := hi
      rw [hself, h.counter, Set.ncard_sdiff_singleton_of_mem hmem]
    · have hnot : i ∉ x.counting v := fun hmem => hv (Option.some.inj (hmem.symm.trans hi))
      rw [hother v hv, h.counter, Set.sdiff_singleton_eq_self hnot]
  · show connections.get v ≠ some 0
    by_cases hv : v = u
    · exact hv ▸ hpos
    · exact hother v hv ▸ h.positive v

end

/-! ## The presence -/

section
variable {env : Env} {w w' : World} {u v : UserId} {connected stored : Bool} {now : DateTime}

theorem appendProfileEvents_succeeds (env : Env) (now : DateTime) {a : Account}
    (ha : w.activeAccount u = some a) (profile : UserProfile) :
    ∃ w', (appendProfileEvents env u profile now).Runs w () w' := by
  unfold appendProfileEvents
  rw [exists_congr fun _ => Tx.runs_get_bind]
  obtain ⟨w₁, hevent, hsame⟩ : ∃ w₁, (appendEvent env [u] .presenceUpdated (.profile profile)
      now).Runs w () w₁ ∧ w₁.accounts = w.accounts := ⟨_, appendEvent_runs.mpr rfl, rfl⟩
  refine (Tx.forEach_runs (I := fun s : World => s.accounts = w.accounts)
    (fun recipient _ s hs => ?_) hsame).imp fun w' hloop =>
      Tx.runs_bind.mpr ⟨(), w₁, hevent, hloop.1⟩
  have hactive : s.activeAccount u = some a := by
    unfold Store.activeAccount
    rw [hs]
    exact ha
  simp only [Tx.runs_get_bind, Tx.runs_okOr_bind, appendEvent_runs, visibleProfile, hactive,
    Option.map_some, Option.some.injEq, exists_eq_left']
  exact ⟨_, rfl, hs⟩

/-- The update fails for an account that is deleted, and for no other. -/
theorem setConnectionPresence_succeeds (env : Env) (connected : Bool) (now : DateTime) :
    (∃ w', (setConnectionPresence env u connected now).Runs w () w') ↔
      (w.activeAccount u).isSome := by
  unfold setConnectionPresence
  simp only [Tx.runs_get_bind, Tx.runs_okOr_bind, update_bind_runs]
  constructor
  · rintro ⟨w', a, ha, -⟩
    exact Option.isSome_of_eq_some ha
  · intro h
    obtain ⟨a, ha⟩ := Option.isSome_iff_exists.mp h
    have hactive := (activeAccount_some.mp ha).2
    obtain ⟨w', hw'⟩ := appendProfileEvents_succeeds env now
      (activeAccount_some.mpr ⟨Map.get_insert_self w.accounts u { a with profile :=
        { a.profile with
          presence := if connected then (w.preferredPresence.get u).getD .online else .offline
          lastSeenAt := some now } }, hactive⟩ :
        (w.set .accounts (w.accounts.insert u _)).activeAccount u = some _) _
    exact ⟨w', a, ha, hw'⟩

/-- It is made if the database takes it and the account is there. -/
theorem setPresence_isSome : (w.setPresence env u connected now stored).isSome ↔
    stored = true ∧ (w.activeAccount u).isSome := by
  rw [← setConnectionPresence_succeeds env connected now]
  unfold World.setPresence Tx.Runs
  split
  · simp_all
  · cases stored <;> simp_all

/-- It sets the presence of the user, and of nobody else. -/
theorem setPresence_some (h : w.setPresence env u connected now stored = some w') :
    (∀ p ∈ w'.presence u, p = if connected then w.prefers u else .offline) ∧
      (∀ v, v ≠ u → w'.presence v = w.presence v) ∧ ∀ v, w'.prefers v = w.prefers v := by
  have hrun : (setConnectionPresence env u connected now).Runs w () w' := by
    unfold World.setPresence at h
    split at h
    · cases h
    · split at h <;> cases h
      exact ‹_›
  have hprefers : w'.preferredPresence = w.preferredPresence :=
    (Tx.Keeps.runs (R := Evolves [.accounts]) hrun).same .preferredPresence (by decide)
  unfold setConnectionPresence at hrun
  simp only [Tx.runs_get_bind, Tx.runs_okOr_bind, update_bind_runs] at hrun
  obtain ⟨a, -, hrun⟩ := hrun
  have hsame : w'.accounts = w.accounts.insert u _ :=
    (Tx.Keeps.runs (R := Evolves []) hrun).same .accounts (by decide)
  refine ⟨fun p hp => ?_, fun v hv => ?_, fun v => ?_⟩
  · rw [World.presence, hsame, Map.get_insert_self] at hp
    exact (Option.some.inj hp).symm
  · rw [World.presence, hsame, Map.get_insert_ne hv]
    rfl
  · rw [World.prefers, hprefers]
    rfl

/-- The other transactions set no presence, and not what is preferred. -/
theorem Op.presence {op : Op} (hr : (op.run env).Runs w () w') (hop : op.writesPresence = false)
    (u : UserId) : (∀ p ∈ w'.presence u, p ∈ w.presence u) ∧ w'.prefers u = w.prefers u := by
  constructor
  · intro p hp
    obtain ⟨a', ha', rfl⟩ := Option.map_eq_some_iff.mp hp
    rcases Op.profile hr ha' with ⟨a, ha, hstep⟩ | ⟨input, now, rfl, -⟩
    · refine Option.map_eq_some_iff.mpr ⟨a, ha, ?_⟩
      generalize a.profile = profile at hstep ⊢
      generalize a'.profile = profile' at hstep ⊢
      cases hstep with
      | same => rfl
      | loggedIn | connected | updated | deleted => cases hop
    · cases hop
  · have hkept : op.preferred env w u = w.preferredPresence.get u := by
      cases op <;> first | rfl | cases hop
    rw [World.prefers, Op.preferredPresence hr, hkept]
    rfl

end

/-! ## The condition -/

section
variable {ι : Type}

/-- Whose first opening call is still to write. -/
def SocketTask.opens : SocketTask → Option UserId
  | .counted user true | .refused user => some user
  | _ => none

/-- Whose last closing call is still to write. -/
def SocketTask.closes : SocketTask → Option UserId
  | .uncounted user true => some user
  | _ => none

def Presences.Opening (x : Presences ι) (u : UserId) : Prop := ∃ i, (x.sockets i).opens = some u

def Presences.Closing (x : Presences ι) (u : UserId) : Prop := ∃ i, (x.sockets i).closes = some u

/-- The steps that leave the presence where it should be. -/
def Presences.Tidy (x : Presences ι) : PresenceStep ι → Prop
  | .count _ u => (x.connections.get u).getD 0 < u64Max
  | .giveUp i => ∀ u, x.sockets i = .refused u →
    x.connections.get u = some 1 ∧ (x.Closing u ∨ x.world.Offline u)
  | .leave i _ stored => ∀ u, x.sockets i = .uncounted u true →
    if stored = true ∧ (x.world.activeAccount u).isSome then
      x.connections.get u = none ∨ x.Opening u
    else
      x.connections.get u ≠ none ∨ x.world.Offline u ∨ ∃ j, j ≠ i ∧ (x.sockets j).closes = some u
  | .restart => ∀ u, x.world.Offline u
  | _ => True

/-- The presence of the user follows the counter, up to the calls that are still to write. -/
structure Presences.Follows (x : Presences ι) (u : UserId) : Prop where
  shown : x.connections.get u ≠ none →
    x.Opening u ∨ ∀ p ∈ x.world.presence u, p = x.world.prefers u
  hidden : x.connections.get u = none → x.Closing u ∨ x.world.Offline u

variable [DecidableEq ι] {env : Env} {x x' : Presences ι} {l : PresenceStep ι} {i : ι}
  {u v : UserId} {t : SocketTask} {connections : Connections} {world : World}

theorem opening_at (ht : (x.sockets i).opens = some u → t.opens = some u) (h : x.Opening u) :
    (x.at i t).Opening u := by
  obtain ⟨j, hj⟩ := h
  by_cases hji : j = i
  · subst hji
    exact ⟨j, by simpa [Presences.at] using ht hj⟩
  · exact ⟨j, by simpa [Presences.at, hji] using hj⟩

theorem closing_at (ht : (x.sockets i).closes = some u → t.closes = some u) (h : x.Closing u) :
    (x.at i t).Closing u := by
  obtain ⟨j, hj⟩ := h
  by_cases hji : j = i
  · subst hji
    exact ⟨j, by simpa [Presences.at] using ht hj⟩
  · exact ⟨j, by simpa [Presences.at, hji] using hj⟩

/-- A step that is not about the user. -/
theorem Presences.Follows.other (h : x.Follows u) (hget : connections.get u = x.connections.get u)
    (hpresence : ∀ p ∈ world.presence u, p ∈ x.world.presence u)
    (hprefers : world.prefers u = x.world.prefers u)
    (hopening : (x.sockets i).opens = some u → t.opens = some u)
    (hclosing : (x.sockets i).closes = some u → t.closes = some u) :
    (Presences.at ⟨world, connections, x.sockets⟩ i t).Follows u where
  shown hsome := by
    refine (h.shown (hget ▸ hsome)).imp (opening_at hopening) fun hold p hp => ?_
    exact (hold p (hpresence p hp)).trans hprefers.symm
  hidden hnone := (h.hidden (hget ▸ hnone)).imp (closing_at hclosing) fun hold p hp =>
    hold p (hpresence p hp)

/-! ## A step -/

theorem countConnection_of_lt (h : (connections.get u).getD 0 < u64Max) :
    countConnection u connections = (decide ((connections.get u).getD 0 = 0),
      connections.insert u ((connections.get u).getD 0 + 1)) := by
  unfold countConnection
  rw [saturatingSucc_of_lt h]
  simp

theorem uncountConnection_succ {n : Nat} (h : connections.get u = some (n + 1)) :
    uncountConnection u connections =
      if n = 0 then (true, connections.remove u) else (false, connections.insert u n) := by
  simp only [uncountConnection, h, Nat.add_sub_cancel]

theorem Presences.Counted.step (hx : x.Counted) (hok : x.Tidy l) (h : Presenting env x l x') :
    x'.Counted := by
  cases h with
  | ran => exact ⟨hx.finite, hx.counter, hx.positive⟩
  | @counted i u hi =>
    rw [countConnection_of_lt hok]
    refine hx.add (u := u) (hi ▸ rfl) rfl (Map.get_insert_self ..) fun v hv => ?_
    exact Map.get_insert_ne hv
  | joined hi | greeted hi | refused hi | stayed hi | left hi | unset hi => exact hx.same (hi ▸ rfl)
  | @gaveUp i u hi =>
    obtain ⟨hone, -⟩ := hok u hi
    refine hx.drop (u := u) (hi ▸ rfl) rfl ?_ ?_ fun v hv => ?_
    · rw [Map.get_remove_self, hone]
      rfl
    · rw [Map.get_remove_self]
      nofun
    · exact Map.get_remove_ne hv
  | @uncounted i u hi =>
    have hmem : i ∈ x.counting u := (congrArg SocketTask.holder hi).trans rfl
    obtain ⟨n, hget, -⟩ := hx.get_of_mem hmem
    rw [uncountConnection_succ hget]
    split
    · refine hx.drop (u := u) (hi ▸ rfl) rfl ?_ ?_ fun v hv => ?_
      · subst_vars
        rw [Map.get_remove_self, hget]
        rfl
      · rw [Map.get_remove_self]
        nofun
      · exact Map.get_remove_ne hv
    · refine hx.drop (u := u) (hi ▸ rfl) rfl ?_ ?_ fun v hv => ?_
      · rw [Map.get_insert_self, hget]
        rfl
      · rw [Map.get_insert_self]
        exact fun hzero => absurd (Option.some.inj hzero) ‹_›
      · exact Map.get_insert_ne hv
  | restarted => exact .start rfl fun _ => rfl

/-- The presence follows, for every user. -/
theorem Presences.Follows.step (hf : ∀ u, x.Follows u) (hx : x.Counted) (hok : x.Tidy l)
    (h : Presenting env x l x') (v : UserId) : x'.Follows v := by
  have hv := hf v
  cases h with
  | ran op hop hrun =>
    obtain ⟨hpresence, hprefers⟩ := Op.presence hrun hop v
    refine ⟨fun hsome => (hv.shown hsome).imp_right fun hold p hp => ?_,
      fun hnone => (hv.hidden hnone).imp_right fun hold p hp => hold p (hpresence p hp)⟩
    exact (hold p (hpresence p hp)).trans hprefers.symm
  | @counted i u hi =>
    rw [countConnection_of_lt hok]
    by_cases hvu : v = u
    · subst hvu
      refine ⟨fun _ => ?_, fun hnone => by cases (Map.get_insert_self ..).symm.trans hnone⟩
      cases hget : x.connections.get v with
      | none => exact .inl ⟨i, by simp [Presences.at, SocketTask.opens]⟩
      | some n => exact (hv.shown (hget ▸ nofun)).imp_left (opening_at (hi ▸ nofun))
    · exact hv.other (Map.get_insert_ne hvu) (fun _ => id) rfl (hi ▸ nofun) (hi ▸ nofun)
  | joined hi | stayed hi => exact hv.other rfl (fun _ => id) rfl (hi ▸ nofun) (hi ▸ nofun)
  | refused hi => exact hv.other rfl (fun _ => id) rfl (hi ▸ id) (hi ▸ nofun)
  | @greeted i now stored u w' hi hset =>
    obtain ⟨hself, hother, hprefers⟩ := setPresence_some hset
    by_cases hvu : v = u
    · subst hvu
      have hmem : i ∈ x.counting v := (congrArg SocketTask.holder hi).trans rfl
      obtain ⟨n, hget, -⟩ := hx.get_of_mem hmem
      exact ⟨fun _ => .inr fun p hp => (hself p hp).trans (hprefers v).symm,
        fun hnone => by cases hget.symm.trans hnone⟩
    · refine hv.other rfl (fun p hp => hother v hvu ▸ hp) (hprefers v) (hi ▸ fun h => ?_)
        (hi ▸ nofun)
      exact absurd (Option.some.inj h).symm hvu
  | @gaveUp i u hi =>
    by_cases hvu : v = u
    · subst hvu
      have hnone : (x.connections.remove v).get v = none := Map.get_remove_self ..
      exact ⟨fun hsome => absurd hnone hsome,
        fun _ => (hok v hi).2.imp_left (closing_at (hi ▸ nofun))⟩
    · refine hv.other (Map.get_remove_ne hvu) (fun _ => id) rfl
        (hi ▸ fun h => ?_) (hi ▸ nofun)
      exact absurd (Option.some.inj h).symm hvu
  | @uncounted i u hi =>
    have hmem : i ∈ x.counting u := (congrArg SocketTask.holder hi).trans rfl
    obtain ⟨n, hget, -⟩ := hx.get_of_mem hmem
    rw [uncountConnection_succ hget]
    by_cases hvu : v = u
    · subst hvu
      split
      · have hnone : (x.connections.remove v).get v = none := Map.get_remove_self ..
        exact ⟨fun hsome => absurd hnone hsome,
          fun _ => .inl ⟨i, by simp [Presences.at, SocketTask.closes]⟩⟩
      · exact ⟨fun _ => (hv.shown (hget ▸ nofun)).imp_left (opening_at (hi ▸ nofun)),
          fun hnone => by cases (Map.get_insert_self ..).symm.trans hnone⟩
    · split
      · exact hv.other (Map.get_remove_ne hvu) (fun _ => id) rfl (hi ▸ nofun)
          (hi ▸ nofun)
      · exact hv.other (Map.get_insert_ne hvu) (fun _ => id) rfl (hi ▸ nofun) (hi ▸ nofun)
  | @left i now stored u w' hi hset =>
    obtain ⟨hself, hother, hprefers⟩ := setPresence_some hset
    have hok := hok u hi
    rw [if_pos (setPresence_isSome.mp (Option.isSome_of_eq_some hset))] at hok
    by_cases hvu : v = u
    · subst hvu
      refine ⟨fun hsome => .inl (opening_at (hi ▸ nofun) (hok.resolve_left hsome)),
        fun _ => .inr hself⟩
    · refine hv.other rfl (fun p hp => hother v hvu ▸ hp) (hprefers v) (hi ▸ nofun)
        (hi ▸ fun h => ?_)
      exact absurd (Option.some.inj h).symm hvu
  | @unset i now stored u hi hset =>
    have hok := hok u hi
    rw [if_neg (setPresence_isSome.not.mp (Option.not_isSome_iff_eq_none.mpr hset))] at hok
    by_cases hvu : v = u
    · subst hvu
      refine ⟨fun hsome => (hv.shown hsome).imp_left (opening_at (hi ▸ nofun)), fun hnone => ?_⟩
      rcases hok with hsome | hoffline | ⟨j, hji, hj⟩
      · exact absurd hnone hsome
      · exact .inr hoffline
      · exact .inl ⟨j, by simpa [Presences.at, hji] using hj⟩
    · refine hv.other rfl (fun _ => id) rfl (hi ▸ nofun) (hi ▸ fun h => ?_)
      exact absurd (Option.some.inj h).symm hvu
  | restarted => exact ⟨fun hsome => absurd (Map.get_empty v) hsome, fun _ => .inr (hok v)⟩

end

/-! ## Every interleaving -/

theorem presences_inductive (ι : Type) [DecidableEq ι] (env : Env) :
    ((presences ι env).restrict Presences.Tidy).Inductive
      fun x => x.Counted ∧ ∀ u, x.Follows u where
  init x h := by
    obtain ⟨-, hconnections, hidle, hoffline⟩ := h
    refine ⟨.start hconnections hidle, fun u => ⟨fun hsome => ?_, fun _ => .inr (hoffline u)⟩⟩
    rw [hconnections] at hsome
    exact absurd (Map.get_empty u) hsome
  step x l x' h hstep := by
    obtain ⟨hok, hstep⟩ := hstep
    have hcases := Presences.step_cases hstep
    exact ⟨h.1.step hok hcases, Presences.Follows.step h.2 h.1 hok hcases⟩

/-- Whose call the socket is in. -/
def SocketTask.calling : SocketTask → Option UserId
  | .counted user _ | .refused user | .uncounted user _ => some user
  | .idle | .opened _ => none

theorem SocketTask.calling_of_opens {t : SocketTask} {u : UserId} (h : t.opens = some u) :
    t.calling = some u := by
  unfold SocketTask.opens at h
  split at h <;> first | exact h | cases h

theorem SocketTask.calling_of_closes {t : SocketTask} {u : UserId} (h : t.closes = some u) :
    t.calling = some u := by
  unfold SocketTask.closes at h
  split at h <;> first | exact h | cases h

/-- No call of the user is in progress. -/
def Presences.Quiet {ι : Type} (x : Presences ι) (u : UserId) : Prop :=
  ∀ i, (x.sockets i).calling ≠ some u

theorem counting_quiet {ι : Type} {x : Presences ι} {u : UserId} (h : x.Quiet u) :
    x.counting u = {i | x.sockets i = .opened u} := by
  ext i
  have hi := h i
  cases hsocket : x.sockets i <;>
    simp_all [Presences.counting, SocketTask.holder, SocketTask.calling]

/-- **Presence follows connections.** In every interleaving of tidy steps: the counter is the
number of sockets that count for the user; and while no call of theirs is in progress, these are
the open ones, and the presence stored is offline if there are none, and else the preferred. -/
theorem presence_follows (ι : Type) [DecidableEq ι] (env : Env) (x : Presences ι)
    (hx : ((presences ι env).restrict Presences.Tidy).Reachable x) (u : UserId) :
    (x.connections.get u).getD 0 = (x.counting u).ncard ∧
      (x.Quiet u → (x.connections.get u).getD 0 = {i | x.sockets i = .opened u}.ncard ∧
        ∀ p ∈ x.world.presence u,
          p = if (x.connections.get u).getD 0 = 0 then .offline else x.world.prefers u) := by
  obtain ⟨hcounted, hfollows⟩ := (presences_inductive ι env).reachable hx
  refine ⟨hcounted.counter u, fun hquiet => ⟨?_, fun p hp => ?_⟩⟩
  · rw [← counting_quiet hquiet]
    exact hcounted.counter u
  · cases hget : x.connections.get u with
    | none =>
      rcases (hfollows u).hidden hget with ⟨i, hi⟩ | hoffline
      · exact absurd (SocketTask.calling_of_closes hi) (hquiet i)
      · exact hoffline p hp
    | some n =>
      have hn : n ≠ 0 := fun h => hcounted.positive u (h ▸ hget)
      rw [Option.getD_some, if_neg hn]
      rcases (hfollows u).shown (hget ▸ nofun) with ⟨i, hi⟩ | hshown
      · exact absurd (SocketTask.calling_of_opens hi) (hquiet i)
      · exact hshown p hp

/-! ## Two runs -/

/-- A server with the store, just started. -/
def Presences.started (w : World) : Presences Bool := ⟨w, .empty, fun _ => .idle⟩

/-- A state that a schedule of checked steps reaches from a store where alice is offline. -/
theorem presences_reach (ok : Presences Bool → PresenceStep Bool → Prop)
    (check : Presences Bool → PresenceStep Bool → Bool) (hcheck : ∀ x l, check x l = true → ok x l)
    (ls : List (PresenceStep Bool)) (p : Presences Bool → Bool)
    (h : (runOps Env.numbered [.register alice 0, .setConnectionPresence 1 false 0]
      World.init).toOption.any (fun w =>
        w.accounts.values.all (fun a => decide (a.profile.presence = .offline)) &&
          (LTS.exec (fun x l => if check x l then x.step Env.numbered l else none) ls
            (.started w)).any p) = true) :
    ∃ x, ((presences Bool Env.numbered).restrict ok).Reachable x ∧ p x = true := by
  obtain ⟨w, hrun, hw⟩ := reaches Env.numbered _ _ h
  obtain ⟨hoffline, hexec⟩ := Bool.and_eq_true_iff.mp hw
  refine LTS.reaches_of_exec (M := (presences Bool Env.numbered).restrict ok)
    ⟨⟨_, _, rfl, hrun⟩, rfl, fun _ => rfl, fun u q hq => ?_⟩ ls (fun x l _ x' hnext => ?_) p hexec
  · obtain ⟨a, ha, rfl⟩ := Option.map_eq_some_iff.mp hq
    exact of_decide_eq_true (List.all_eq_true.mp hoffline a (Map.mem_values.mpr ⟨u, ha⟩))
  · split at hnext
    · exact ⟨hcheck x l ‹_›, hnext⟩
    · cases hnext

theorem presence_follows_open : ∃ x : Presences Bool,
    ((presences Bool Env.numbered).restrict Presences.Tidy).Reachable x ∧ x.Quiet 1 ∧
      {i | x.sockets i = .opened 1}.ncard = 1 ∧ x.world.presence 1 = some .online := by
  obtain ⟨x, hx, hp⟩ := presences_reach Presences.Tidy
    (fun x l => match l with
      | .count _ u => decide ((x.connections.get u).getD 0 < u64Max)
      | .greet _ _ _ => true
      | _ => false)
    (fun x l h => by
      cases l with
      | count _ u => exact (of_decide_eq_true h : (x.connections.get u).getD 0 < u64Max)
      | greet => trivial
      | _ => cases h)
    [.count true 1, .greet true 0 true]
    (fun x => decide (∀ i, (x.sockets i).calling ≠ some 1) &&
      decide (x.connections.get 1 = some 1) && decide (x.world.presence 1 ≠ none) &&
        decide (x.world.prefers 1 = .online)) (by decide +kernel)
  simp only [Bool.and_eq_true, decide_eq_true_eq] at hp
  obtain ⟨⟨⟨hquiet, hget⟩, hpresence⟩, hprefers⟩ := hp
  obtain ⟨hcounter, hfollows⟩ := (presence_follows Bool Env.numbered x hx 1).2 hquiet
  obtain ⟨p, hp⟩ := Option.ne_none_iff_exists'.mp hpresence
  rw [hget] at hcounter hfollows
  exact ⟨x, hx, hquiet, hcounter.symm, hp.trans (congrArg some ((hfollows p hp).trans hprefers))⟩

/-- Alice's last closing call writes after her next socket is open; a refused opening call forgets
the socket that counted while it waited; and after a restart nobody sets her offline. -/
theorem presence_left_behind :
    (∃ x, (presences Bool Env.numbered).Reachable x ∧ x.Quiet 1 ∧ x.sockets false = .opened 1 ∧
      x.connections.get 1 = some 1 ∧ x.world.presence 1 = some .offline ∧
      x.world.prefers 1 = .online) ∧
    (∃ x, (presences Bool Env.numbered).Reachable x ∧ x.Quiet 1 ∧ x.sockets false = .opened 1 ∧
      x.connections.get 1 = none) ∧
    ∃ x, (presences Bool Env.numbered).Reachable x ∧ (∀ i, x.sockets i = .idle) ∧
      x.connections.get 1 = none ∧ x.world.presence 1 = some .online := by
  refine ⟨?_, ?_, ?_⟩
  · obtain ⟨x, hx, hp⟩ := presences_reach (fun _ _ => True) (fun _ _ => true)
      (fun _ _ _ => trivial)
      [.count true 1, .greet true 0 true, .uncount true, .count false 1, .greet false 0 true,
        .leave true 0 true]
      (fun x => decide (∀ i, (x.sockets i).calling ≠ some 1) &&
        decide (x.sockets false = .opened 1) && decide (x.connections.get 1 = some 1) &&
          decide (x.world.presence 1 = some .offline) && decide (x.world.prefers 1 = .online))
      (by decide +kernel)
    simp only [Bool.and_eq_true, decide_eq_true_eq] at hp
    obtain ⟨⟨⟨⟨hquiet, hopen⟩, hget⟩, hpresence⟩, hprefers⟩ := hp
    exact ⟨x, hx.of_restrict, hquiet, hopen, hget, hpresence, hprefers⟩
  · obtain ⟨x, hx, hp⟩ := presences_reach (fun _ _ => True) (fun _ _ => true)
      (fun _ _ _ => trivial)
      [.count true 1, .count false 1, .greet false 0 true, .greet true 0 false, .giveUp true]
      (fun x => decide (∀ i, (x.sockets i).calling ≠ some 1) &&
        decide (x.sockets false = .opened 1) && decide (x.connections.get 1 = none))
      (by decide +kernel)
    simp only [Bool.and_eq_true, decide_eq_true_eq] at hp
    obtain ⟨⟨hquiet, hopen⟩, hget⟩ := hp
    exact ⟨x, hx.of_restrict, hquiet, hopen, hget⟩
  · obtain ⟨x, hx, hp⟩ := presences_reach (fun _ _ => True) (fun _ _ => true)
      (fun _ _ _ => trivial) [.count true 1, .greet true 0 true, .restart]
      (fun x => decide (∀ i, x.sockets i = .idle) && decide (x.connections.get 1 = none) &&
        decide (x.world.presence 1 = some .online)) (by decide +kernel)
    simp only [Bool.and_eq_true, decide_eq_true_eq] at hp
    obtain ⟨⟨hidle, hget⟩, hpresence⟩ := hp
    exact ⟨x, hx.of_restrict, hidle, hget, hpresence⟩

end IamRust
