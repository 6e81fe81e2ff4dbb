import IamRust.L0Core.Linearizable
import IamRust.L5Concurrency.Mutate

/-!
# Calls one at a time

Calls of the service that change the store and calls that only read it, side by
side: the first go through `mutate`, the second take the lock for reading. What
they answer is what a service answers that takes one call at a time, in an order
that respects which call had answered before another began.

* `atOnce`: the service that takes one call at a time. A call that changes the
  store may be refused because the database is not written.
* `AccessEffect`: the steps of a call, by what they do to the store.
* `calls_linearizable`.
-/
namespace IamRust

open Core

/-- How a call uses the store: `self.mutate(..)` or `self.store.read()`. -/
inductive Access (α : Type) where
  | mutate (operation : Service α)
  | read (query : World → Except ApplicationError α)

section
variable {α : Type}

/-- A reader waits while the lock is held, and answers behind it.
mirrors crates/application/src/service.rs:664-714, 4081-4083 -/
def Access.step (s : Shared) (call : Call α) (l : CallStep) : Access α → Option (Shared × Call α)
  | .mutate operation => Call.step operation s call l
  | .read query =>
    match call, l with
    | .waiting, .lock => if s.locked then none else some (s, .ended (some (query s.store)))
    | .waiting, .dropped _ => some (s, .ended none)
    | _, _ => none

/-- Any number of calls, each once. -/
def accesses {ι : Type} (access : ι → Access α) : Threads ι Shared (Call α) CallStep where
  init s calls := s.locked = false ∧ ∀ i, calls i = .waiting
  step i s call l := (access i).step s call l

/-! ## One call at a time -/

/-- What a call answers on a store, and the store behind it. -/
inductive Access.Answers (w : World) : Access α → Except ApplicationError α → World → Prop where
  | mutated {operation : Service α} {result : α} {w' : World} (h : operation.Runs w result w') :
      Answers w (.mutate operation) (.ok result) w'
  | refused {operation : Service α} {e : ApplicationError} (h : operation w = .error e) :
      Answers w (.mutate operation) (.error e) w
  | unwritten {operation : Service α} : Answers w (.mutate operation) (.error .storage) w
  | read {query : World → Except ApplicationError α} : Answers w (.read query) (query w) w

/-- The service that takes one call at a time. -/
def atOnce {ι : Type} (access : ι → Access α) :
    LTS World (ι × Except ApplicationError α) where
  init _ := True
  step w entry w' := (access entry.1).Answers w entry.2 w'

/-- A call has begun once it took the lock; it has answered when it ended, unless it was dropped. -/
def callsSeen {ι : Type} : Calls (Shared × (ι → Call α)) ι (Except ApplicationError α) where
  begun x i := x.2 i ≠ .waiting
  answered x i answer := x.2 i = .ended (some answer)

/-! ## What a step does -/

inductive AccessEffect (access : Access α) (s : Shared) : Call α → Shared → Call α → Prop where
  | dropped : AccessEffect access s .waiting s (.ended none)
  /-- Under the lock the call answers without a change. -/
  | answers {answer : Except ApplicationError α} (hfree : s.locked = false)
      (h : access.Answers s.store answer s.store) :
      AccessEffect access s .waiting s (.ended (some answer))
  | locks {result : α} {w : World} (hfree : s.locked = false)
      (h : access.Answers s.store (.ok result) w)
      (hundone : access.Answers s.store (.error .storage) s.store) :
      AccessEffect access s .waiting { s with store := w, locked := true } (.writing s.store result)
  | undoes {previous : World} {result : α} {s' : Shared} (hstore : s'.store = previous)
      (hfree : s'.locked = false) :
      AccessEffect access s (.writing previous result) s' (.ended (some (.error .storage)))
  /-- The lock is released with the store as it is. -/
  | keeps {previous : World} {result : α} {s' : Shared} {call : Call α}
      (hstore : s'.store = s.store) (hfree : s'.locked = false)
      (hcall : call = .ended none ∨ ∃ unsent, call = .publishing unsent result) :
      AccessEffect access s (.writing previous result) s' call
  | sends {unsent unsent' : List UserEvent} {result : α} {s' : Shared} {call : Call α}
      (hstore : s'.store = s.store) (hlocked : s'.locked = s.locked)
      (hcall : call = .publishing unsent' result ∨ call = .ended (some (.ok result))) :
      AccessEffect access s (.publishing unsent result) s' call

theorem effect_of_step {access : Access α} {s s' : Shared} {call call' : Call α} {l : CallStep}
    (h : access.step s call l = some (s', call')) : AccessEffect access s call s' call' := by
  cases access with
  | read query =>
    cases call <;> cases l <;> simp only [Access.step] at h <;> try cases h
    · split at h
      · cases h
      · rename_i hfree
        cases h
        exact .answers (by simpa using hfree) .read
    · exact .dropped
  | mutate operation =>
    have h : Call.step operation s call l = some (s', call') := h
    cases call with
    | waiting =>
      cases l <;> simp only [Call.step] at h <;> try cases h
      · split at h
        · cases h
        rename_i hfree
        have hfree : s.locked = false := by simpa using hfree
        split at h
        · rename_i e he
          cases h
          exact .answers hfree (.refused he)
        · rename_i result w hr
          cases h
          exact .locks hfree (.mutated hr) .unwritten
      · exact .dropped
    | writing previous result =>
      cases l <;> simp only [Call.step] at h <;> try cases h
      · split at h <;> cases h
        exact .undoes rfl rfl
      · split at h <;> cases h
        exact .undoes rfl rfl
      · split at h <;> cases h
        exact .keeps rfl rfl (.inl rfl)
      · exact .keeps rfl rfl (.inr ⟨_, rfl⟩)
    | publishing unsent result =>
      cases unsent with
      | nil =>
        cases l <;> simp only [Call.step] at h <;> cases h
        exact .sends rfl rfl (show _ = Call.publishing [] result ∨ _ from .inr rfl)
      | cons event rest =>
        cases l <;> simp only [Call.step] at h <;> cases h
        exact .sends rfl rfl (.inl rfl)
    | ended outcome => cases l <;> cases h

end

/-! ## The log of the calls -/

section
variable {ι α : Type} {access : ι → Access α} {s₀ : World}
  {log : List (ι × Except ApplicationError α)} {x x' : Shared × (ι → Call α)}

/-- The call may still take effect. -/
def Call.Pending : Call α → Prop
  | .waiting | .writing _ _ => True
  | _ => False

/-- The calls in the log, one at a time, lead to the store between two calls, or to the one that
the call under the lock found. -/
structure TookEffect (access : ι → Access α) (s₀ : World)
    (log : List (ι × Except ApplicationError α)) (x : Shared × (ι → Call α)) : Prop where
  run : ∃ w, (atOnce access).Run s₀ log w ∧ (x.1.locked = false → x.1.store = w)
  held : ∀ i previous result, x.2 i = .writing previous result → x.1.locked = true ∧
    (atOnce access).Run s₀ log previous ∧
    (access i).Answers previous (.ok result) x.1.store ∧
    (access i).Answers previous (.error .storage) previous
  alone : ∀ i j previous result previous' result', x.2 i = .writing previous result →
    x.2 j = .writing previous' result' → i = j
  once : (log.map Prod.fst).Nodup
  pending : ∀ i, (x.2 i).Pending → ∀ answer, (i, answer) ∉ log
  published : ∀ i unsent result, x.2 i = .publishing unsent result → (i, .ok result) ∈ log
  answered : ∀ i answer, x.2 i = .ended (some answer) → (i, answer) ∈ log

theorem TookEffect.start (hwaiting : ∀ i, x.2 i = .waiting) :
    TookEffect access x.1.store [] x where
  run := ⟨_, .nil _, fun _ => rfl⟩
  held i previous result hi := by simp [hwaiting i] at hi
  alone i j previous result previous' result' hi := by simp [hwaiting i] at hi
  once := List.nodup_nil
  pending i _ answer := List.not_mem_nil
  published i unsent result hi := by simp [hwaiting i] at hi
  answered i answer hi := by simp [hwaiting i] at hi

section
variable {s s' : Shared} {calls : ι → Call α} {i : ι} {call' : Call α}
  {new : List (ι × Except ApplicationError α)}

/-- A new entry is of a call that is not in the log. -/
theorem TookEffect.nodup (h : TookEffect access s₀ log (s, calls))
    (hnew : new = [] ∨ (calls i).Pending ∧ ∃ answer, new = [(i, answer)]) :
    ((log ++ new).map Prod.fst).Nodup := by
  rcases hnew with rfl | ⟨hpending, answer, rfl⟩
  · rw [List.append_nil]
    exact h.once
  · rw [List.map_append, List.map_singleton, List.nodup_append]
    refine ⟨h.once, List.nodup_singleton _, ?_⟩
    intro j hj k hk heq
    obtain ⟨entry, he, rfl⟩ := List.mem_map.mp hj
    rw [List.mem_singleton] at hk
    subst hk
    subst heq
    exact h.pending _ hpending entry.2 he

/-- A call moves on, and is put in the log if it takes effect; while another is under the lock it
leaves the store as it is. -/
theorem TookEffect.turn [DecidableEq ι] (h : TookEffect access s₀ log (s, calls))
    (hnew : new = [] ∨ (calls i).Pending ∧ ∃ answer, new = [(i, answer)])
    (hrun : ∃ w, (atOnce access).Run s₀ (log ++ new) w ∧ (s'.locked = false → s'.store = w))
    (hheld : ∀ previous result, call' = .writing previous result → s'.locked = true ∧
      (atOnce access).Run s₀ (log ++ new) previous ∧
      (access i).Answers previous (.ok result) s'.store ∧
      (access i).Answers previous (.error .storage) previous)
    (hothers : ∀ j, j ≠ i → ∀ previous result, calls j = .writing previous result →
      s'.locked = s.locked ∧ s'.store = s.store ∧ new = [] ∧
        ∀ previous result, call' ≠ .writing previous result)
    (hpending : call'.Pending → (calls i).Pending ∧ new = [])
    (hpublished : ∀ unsent result, call' = .publishing unsent result → (i, .ok result) ∈ log ++ new)
    (hanswered : ∀ answer, call' = .ended (some answer) → (i, answer) ∈ log ++ new) :
    TookEffect access s₀ (log ++ new) (s', Function.update calls i call') where
  run := hrun
  held j previous result hj := by
    dsimp only at hj ⊢
    by_cases hji : j = i
    · subst hji
      rw [Function.update_self] at hj
      exact hheld previous result hj
    · rw [Function.update_of_ne hji] at hj
      obtain ⟨hlocked, hstore, hnil, -⟩ := hothers j hji previous result hj
      rw [hlocked, hstore, hnil, List.append_nil]
      exact h.held j previous result hj
  alone j k previous result previous' result' hj hk := by
    dsimp only at hj hk
    by_cases hji : j = i <;> by_cases hki : k = i
    · rw [hji, hki]
    · subst hji
      rw [Function.update_self] at hj
      rw [Function.update_of_ne hki] at hk
      exact absurd hj ((hothers k hki previous' result' hk).2.2.2 previous result)
    · subst hki
      rw [Function.update_self] at hk
      rw [Function.update_of_ne hji] at hj
      exact absurd hk ((hothers j hji previous result hj).2.2.2 previous' result')
    · rw [Function.update_of_ne hji] at hj
      rw [Function.update_of_ne hki] at hk
      exact h.alone j k previous result previous' result' hj hk
  once := h.nodup hnew
  pending j hj answer hmem := by
    dsimp only at hj
    by_cases hji : j = i
    · subst hji
      rw [Function.update_self] at hj
      obtain ⟨hcall, hnil⟩ := hpending hj
      rw [hnil, List.append_nil] at hmem
      exact h.pending j hcall answer hmem
    · rw [Function.update_of_ne hji] at hj
      rcases List.mem_append.mp hmem with hmem | hmem
      · exact h.pending j hj answer hmem
      · rcases hnew with rfl | ⟨-, answer', rfl⟩
        · cases hmem
        · exact hji (Prod.mk.inj (List.mem_singleton.mp hmem)).1
  published j unsent result hj := by
    dsimp only at hj
    by_cases hji : j = i
    · subst hji
      rw [Function.update_self] at hj
      exact hpublished unsent result hj
    · rw [Function.update_of_ne hji] at hj
      exact List.mem_append_left _ (h.published j unsent result hj)
  answered j answer hj := by
    dsimp only at hj
    by_cases hji : j = i
    · subst hji
      rw [Function.update_self] at hj
      exact hanswered answer hj
    · rw [Function.update_of_ne hji] at hj
      exact List.mem_append_left _ (h.answered j answer hj)

end

/-- **A step puts one call in the log at most.** -/
theorem TookEffect.step [DecidableEq ι] {i : ι} {l : CallStep} (h : TookEffect access s₀ log x)
    (hst : (accesses access).lts.step x (i, l) x') :
    ∃ new, TookEffect access s₀ (log ++ new) x' := by
  obtain ⟨s, calls⟩ := x
  obtain ⟨s', calls'⟩ := x'
  obtain ⟨call', hstep, hcalls⟩ := hst
  dsimp only at hstep hcalls
  subst hcalls
  have heffect : AccessEffect (access i) s (calls i) s' call' := effect_of_step hstep
  -- nobody is under the lock while it is free, and nobody but the call itself while it writes
  have hnobody : s.locked = false → ∀ j previous result, calls j ≠ .writing previous result := by
    intro hfree j previous result hj
    have hlocked := (h.held j previous result hj).1
    dsimp only at hlocked
    rw [hfree] at hlocked
    cases hlocked
  obtain ⟨w, hw, hstore⟩ := h.run
  dsimp only at hstore
  have hself : ∀ previous result, calls i = .writing previous result → ∀ j, j ≠ i →
      ∀ previous' result', calls j ≠ .writing previous' result' :=
    fun previous result hi j hji previous' result' hj =>
      hji (h.alone j i previous' result' previous result hj hi)
  have hpending : ∀ call, calls i = call → call.Pending → (calls i).Pending :=
    fun call hcall hp => hcall ▸ hp
  cases hi : calls i with
  | waiting =>
    rw [hi] at heffect
    cases heffect with
    | dropped =>
      refine ⟨[], h.turn (.inl rfl) ⟨w, by simpa using hw, hstore⟩ ?_ ?_ ?_ ?_ ?_⟩
      · intro previous result hcall; cases hcall
      · intro j _ previous result _
        exact ⟨rfl, rfl, rfl, fun _ _ hcall => by cases hcall⟩
      · intro hcall; cases hcall
      · intro unsent result hcall; cases hcall
      · intro answer hcall; cases hcall
    | @answers answer hfree hanswer =>
      have hrun := hstore hfree ▸ hw
      refine ⟨[(i, answer)], h.turn (.inr ⟨hpending _ hi trivial, answer, rfl⟩)
        ⟨_, hrun.snoc hanswer, fun _ => rfl⟩ ?_ ?_ ?_ ?_ ?_⟩
      · intro previous result hcall; cases hcall
      · intro j _ previous result hj
        exact absurd hj (hnobody hfree j previous result)
      · intro hcall; cases hcall
      · intro unsent result hcall; cases hcall
      · intro answer' hcall
        cases hcall
        exact List.mem_append_right _ List.mem_cons_self
    | @locks result w' hfree hanswer hundone =>
      have hrun := hstore hfree ▸ hw
      refine ⟨[], h.turn (.inl rfl) ⟨w, by simpa using hw, fun hlocked => by cases hlocked⟩
        ?_ ?_ ?_ ?_ ?_⟩
      · intro previous result' hcall
        cases hcall
        rw [List.append_nil]
        exact ⟨rfl, hrun, hanswer, hundone⟩
      · intro j _ previous result hj
        exact absurd hj (hnobody hfree j previous result)
      · exact fun _ => ⟨hpending _ hi trivial, rfl⟩
      · intro unsent result' hcall; cases hcall
      · intro answer hcall; cases hcall
  | writing previous result =>
    rw [hi] at heffect
    obtain ⟨hlocked, hrun, hanswer, hundone⟩ := h.held i previous result hi
    cases heffect with
    | undoes hback hfree =>
      refine ⟨[(i, .error .storage)], h.turn (.inr ⟨hpending _ hi trivial, _, rfl⟩)
        ⟨previous, hrun.snoc hundone, fun _ => hback⟩ ?_ ?_ ?_ ?_ ?_⟩
      · intro previous' result' hcall; cases hcall
      · intro j hji previous' result' hj
        exact absurd hj (hself previous result hi j hji previous' result')
      · intro hcall; cases hcall
      · intro unsent result' hcall; cases hcall
      · intro answer hcall
        cases hcall
        exact List.mem_append_right _ List.mem_cons_self
    | keeps hsame hfree hcall =>
      refine ⟨[(i, .ok result)], h.turn (.inr ⟨hpending _ hi trivial, _, rfl⟩)
        ⟨s.store, hrun.snoc hanswer, fun _ => hsame⟩ ?_ ?_ ?_ ?_ ?_⟩
      · intro previous' result' hcall'
        rcases hcall with rfl | ⟨unsent, rfl⟩ <;> cases hcall'
      · intro j hji previous' result' hj
        exact absurd hj (hself previous result hi j hji previous' result')
      · rcases hcall with rfl | ⟨unsent, rfl⟩ <;> exact False.elim
      · intro unsent' result' hcall'
        rcases hcall with rfl | ⟨unsent, rfl⟩ <;> cases hcall'
        exact List.mem_append_right _ List.mem_cons_self
      · intro answer hcall'
        rcases hcall with rfl | ⟨unsent, rfl⟩ <;> cases hcall'
  | publishing unsent result =>
    rw [hi] at heffect
    have hmem := h.published i unsent result hi
    cases heffect with
    | sends hsame hlocked hcall =>
      refine ⟨[], h.turn (.inl rfl) ⟨w, by simpa using hw, fun hfree => ?_⟩ ?_ ?_ ?_ ?_ ?_⟩
      · rw [hsame]
        exact hstore (hlocked ▸ hfree)
      · intro previous' result' hcall'
        rcases hcall with rfl | rfl <;> cases hcall'
      · intro j _ previous' result' _
        refine ⟨hlocked, hsame, rfl, fun _ _ hcall' => ?_⟩
        rcases hcall with rfl | rfl <;> cases hcall'
      · rcases hcall with rfl | rfl <;> exact False.elim
      · intro unsent'' result' hcall'
        rcases hcall with rfl | rfl <;> cases hcall'
        exact List.mem_append_left _ hmem
      · intro answer hcall'
        rcases hcall with rfl | rfl <;> cases hcall'
        exact List.mem_append_left _ hmem
  | ended outcome =>
    rw [hi] at heffect
    cases heffect

theorem commits [DecidableEq ι] : Commits (callsSeen (ι := ι) (α := α)) (accesses access).lts
    (TookEffect access s₀) where
  det x l y y' h h' := by
    obtain ⟨call, hstep, hcalls⟩ := h
    obtain ⟨call', hstep', hcalls'⟩ := h'
    rw [hstep] at hstep'
    have heq := Prod.mk.inj (Option.some.inj hstep')
    refine Prod.ext heq.1 ?_
    rw [hcalls, hcalls', heq.2]
  answered log x i answer h hi := h.answered i answer hi
  unbegun log x i answer h hi := by
    have hwaiting : x.2 i = .waiting := Classical.not_not.mp hi
    refine h.pending i ?_ answer
    rw [hwaiting]
    trivial
  step log x l x' h hst := h.step hst

/-- **Calls are linearizable.** In every run of any number of calls, whatever the database does and
whichever calls are dropped, there is an order of the calls that took effect in which a service that
takes one call at a time gives their answers, in which a call that answered before another began
comes first, and which leads to the store the calls have left. -/
theorem calls_linearizable [DecidableEq ι] (access : ι → Access α)
    {x₀ x : Shared × (ι → Call α)} {ls : List (ι × CallStep)}
    (h₀ : (accesses access).lts.init x₀) (r : (accesses access).lts.Run x₀ ls x) :
    ∃ log w, Linearization callsSeen (accesses access).lts (atOnce access) x₀ ls x x₀.1.store w
      log ∧ (x.1.locked = false → x.1.store = w) := by
  obtain ⟨-, hwaiting⟩ := h₀
  refine commits.linearized (fun log y h => ⟨h.once, h.run⟩) (TookEffect.start hwaiting) r

end

/-- What holds of every store that operations reach one at a time holds between concurrent calls. -/
theorem accesses_reachable {ι α : Type} [DecidableEq ι] {env : Env} {access : ι → Access α}
    (hops : ∀ i operation, access i = .mutate operation → ∀ w result w',
      operation.Runs w result w' → ∃ op : Op, (op.run env).Runs w () w')
    {x₀ x : Shared × (ι → Call α)} {ls : List (ι × CallStep)}
    (h₀ : (accesses access).lts.init x₀) (hreach : (service env).Reachable x₀.1.store)
    (r : (accesses access).lts.Run x₀ ls x) (hfree : x.1.locked = false) :
    (service env).Reachable x.1.store := by
  obtain ⟨-, hwaiting⟩ := h₀
  have hstart : TookEffect access x₀.1.store [] x₀ := TookEffect.start hwaiting
  obtain ⟨log, h, -⟩ := commits.run hstart r
  obtain ⟨w, hrun, hstore⟩ := h.run
  rw [hstore hfree]
  refine hrun.preserves (I := (service env).Reachable) ?_ hreach
  rintro v ⟨i, answer⟩ v' hv hanswer
  have hanswer : (access i).Answers v answer v' := hanswer
  cases hi : access i with
  | read query =>
    rw [hi] at hanswer
    cases hanswer
    exact hv
  | mutate operation =>
    rw [hi] at hanswer
    cases hanswer with
    | mutated hr =>
      obtain ⟨op, hop⟩ := hops i operation hi _ _ _ hr
      exact hv.step (l := op) hop
    | refused => exact hv
    | unwritten => exact hv

/-! ## Two calls -/

/-- A call that marks all read, and one that asks for the cursor. -/
def marksAndReads : Bool → Access Nat
  | true => .mutate do
      (Op.markAllRead 7 0).run Env.numbered
      pure 0
  | false => .read fun w => .ok w.cursor

/-- The number a call answered. -/
def Call.number : Call Nat → Option Nat
  | .ended (some (.ok n)) => some n
  | _ => none

theorem Call.ended_of_number {call : Call Nat} {n : Nat} (h : call.number = some n) :
    call = .ended (some (.ok n)) := by
  unfold Call.number at h
  split at h
  · cases h
    rfl
  · cases h

def Call.isWaiting : Call Nat → Bool
  | .waiting => true
  | _ => false

/-- A run of the two calls on a new server. -/
theorem marksAndReads_run (ls : List (Bool × CallStep)) (p : Shared × (Bool → Call Nat) → Bool)
    (h : (LTS.exec (accesses marksAndReads).next ls (.fresh, fun _ => .waiting)).any p = true) :
    ∃ x, (accesses marksAndReads).lts.Run (.fresh, fun _ => .waiting) ls x ∧ p x = true := by
  obtain ⟨x, hx, hp⟩ := (Option.any_eq_true ..).mp h
  exact ⟨x, LTS.run_of_exec (fun _ _ _ _ => Threads.step_of_next) hx, hp⟩

/-- The second call begins when the first has answered, and sees its event. -/
theorem calls_linearizable_two : ∃ ls x log w,
    Linearization callsSeen (accesses marksAndReads).lts (atOnce marksAndReads)
      (.fresh, fun _ => .waiting) ls x World.init w log ∧
    Precedes log (true, .ok 0) (false, .ok 1) := by
  obtain ⟨y, hy, hp⟩ := marksAndReads_run
    [(true, .lock), (true, .written), (true, .send), (true, .finish)]
    (fun y => (y.2 true).number == some 0 && (y.2 false).isWaiting) (by decide +kernel)
  obtain ⟨x, hx, hq⟩ := marksAndReads_run
    [(true, .lock), (true, .written), (true, .send), (true, .finish), (false, .lock)]
    (fun x => (x.2 false).number == some 1) (by decide +kernel)
  obtain ⟨log, w, h, -⟩ := calls_linearizable marksAndReads ⟨rfl, fun _ => rfl⟩ hx
  simp only [Bool.and_eq_true, beq_iff_eq] at hp hq
  have hwaiting : y.2 false = .waiting := by
    have hp := hp.2
    unfold Call.isWaiting at hp
    split at hp
    · assumption
    · cases hp
  refine ⟨_, x, log, w, h, h.realTime 4 y true (.ok 0) false (.ok 1) hy
    (Call.ended_of_number hp.1) (fun hbegun => hbegun hwaiting) ?_⟩
  exact h.answered false (.ok 1) (Call.ended_of_number hq)

end IamRust
