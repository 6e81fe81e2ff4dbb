import IamRust.L0Core.LTS
import Mathlib.Logic.Function.Basic

/-!
# Interleaving

Threads that take turns: each has a part of its own and they share one state.
`step i` is what thread `i` can do by itself, one atomic step at a time.

* `Threads.alone i`: the runs of one thread while the others rest.
* `Threads.lts`: every interleaving.
* `Threads.Holds`: an invariant in three parts, of the shared state, of a thread
  and the shared state, and of two threads. It is inductive
  (`Threads.holds_inductive`) if a step keeps the first two for the thread that
  takes it, and disturbs neither another thread nor the pair.
* `Threads.next`: one step, computed.
-/
namespace Core

structure Threads (ι σ τ Λ : Type) where
  init : σ → (ι → τ) → Prop
  step : ι → σ → τ → Λ → Option (σ × τ)

namespace Threads

variable {ι σ τ Λ : Type} [DecidableEq ι]

/-- One thread by itself. -/
def alone (T : Threads ι σ τ Λ) (i : ι) : LTS (σ × τ) Λ where
  init x := ∃ f, T.init x.1 f ∧ x.2 = f i
  step x l x' := T.step i x.1 x.2 l = some x'

/-- All threads, one step at a time. -/
def lts (T : Threads ι σ τ Λ) : LTS (σ × (ι → τ)) (ι × Λ) where
  init x := T.init x.1 x.2
  step x l x' := ∃ t, T.step l.1 x.1 (x.2 l.1) l.2 = some (x'.1, t) ∧
    x'.2 = Function.update x.2 l.1 t

/-! ## Invariants -/

/-- `I` of the shared state, `L` of each thread and `P` of any two. -/
structure Holds (I : σ → Prop) (L : σ → τ → Prop) (P : τ → τ → Prop) (x : σ × (ι → τ)) : Prop where
  shared : I x.1
  thread : ∀ i, L x.1 (x.2 i)
  pair : ∀ i j, i ≠ j → P (x.2 i) (x.2 j)

section
variable {T : Threads ι σ τ Λ} {ok : σ × (ι → τ) → ι × Λ → Prop} {I : σ → Prop}
  {L : σ → τ → Prop} {P : τ → τ → Prop}

/-- **Freedom from interference.** -/
theorem holds_inductive (hinit : ∀ x, T.init x.1 x.2 → Holds I L P x)
    (hsymm : ∀ t u, P t u → P u t)
    (hown : ∀ (x : σ × (ι → τ)) i l s' t', ok x (i, l) → I x.1 → L x.1 (x.2 i) →
      T.step i x.1 (x.2 i) l = some (s', t') → I s' ∧ L s' t')
    (hother : ∀ (x : σ × (ι → τ)) i l s' t' j, ok x (i, l) → i ≠ j → I x.1 → L x.1 (x.2 i) →
      L x.1 (x.2 j) → P (x.2 i) (x.2 j) → T.step i x.1 (x.2 i) l = some (s', t') →
      L s' (x.2 j) ∧ P t' (x.2 j)) :
    (T.lts.restrict ok).Inductive (Holds I L P) where
  init := hinit
  step x l x' h hs := by
    obtain ⟨i, l⟩ := l
    obtain ⟨s', f⟩ := x'
    obtain ⟨hok, t', hstep, hf⟩ := hs
    dsimp only at hstep hf
    subst hf
    obtain ⟨hI, hL⟩ := hown x i l s' t' hok h.shared (h.thread i) hstep
    have hrest : ∀ j, i ≠ j → L s' (x.2 j) ∧ P t' (x.2 j) := fun j hij =>
      hother x i l s' t' j hok hij h.shared (h.thread i) (h.thread j) (h.pair i j hij) hstep
    refine ⟨hI, fun j => ?_, fun j k hjk => ?_⟩
    · by_cases hj : j = i
      · subst hj
        simpa using hL
      · simpa [hj] using (hrest j (Ne.symm hj)).1
    · by_cases hj : j = i
      · subst hj
        simpa [hjk.symm] using (hrest k hjk).2
      · by_cases hk : k = i
        · subst hk
          simpa [hj] using hsymm _ _ (hrest j (Ne.symm hj)).2
        · simpa [hj, hk] using h.pair j k hjk

end

/-! ## Schedules -/

/-- One step of one thread, computed. -/
def next (T : Threads ι σ τ Λ) (x : σ × (ι → τ)) (l : ι × Λ) : Option (σ × (ι → τ)) :=
  (T.step l.1 x.1 (x.2 l.1) l.2).map fun y => (y.1, Function.update x.2 l.1 y.2)

theorem step_of_next {T : Threads ι σ τ Λ} {x x' : σ × (ι → τ)} {l : ι × Λ}
    (h : T.next x l = some x') : T.lts.step x l x' := by
  obtain ⟨y, hy, rfl⟩ := Option.map_eq_some_iff.mp h
  exact ⟨y.2, hy, rfl⟩

/-- A state that a schedule reaches. -/
theorem reaches (T : Threads ι σ τ Λ) (x : σ × (ι → τ)) (hx : T.init x.1 x.2) (ls : List (ι × Λ))
    (p : σ × (ι → τ) → Bool) (h : (LTS.exec T.next ls x).any p = true) :
    ∃ x', T.lts.Reachable x' ∧ p x' = true :=
  LTS.reaches_of_exec (M := T.lts) hx ls (fun _ _ _ _ h => step_of_next h) p h

/-- By steps that meet a condition, checked along the way. -/
theorem reaches_checked (T : Threads ι σ τ Λ) {ok : σ × (ι → τ) → ι × Λ → Prop}
    {check : σ × (ι → τ) → ι × Λ → Bool} (hcheck : ∀ x l, check x l = true → ok x l)
    (x : σ × (ι → τ)) (hx : T.init x.1 x.2) (ls : List (ι × Λ)) (p : σ × (ι → τ) → Bool)
    (h : (LTS.exec (fun x l => if check x l then T.next x l else none) ls x).any p = true) :
    ∃ x', (T.lts.restrict ok).Reachable x' ∧ p x' = true := by
  refine LTS.reaches_of_exec (M := T.lts.restrict ok) hx ls (fun y l _ y' hnext => ?_) p h
  split at hnext
  · exact ⟨hcheck y l ‹_›, step_of_next hnext⟩
  · cases hnext

end Threads

end Core
