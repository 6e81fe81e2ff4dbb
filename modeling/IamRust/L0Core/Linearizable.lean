import IamRust.L0Core.LTS
import Mathlib.Data.List.Nodup

/-!
# Linearizability

Calls on a shared object overlap. They are linearizable if there is an order of
those that took effect in which an object that takes one call at a time gives
the same answers, and in which a call that answered before another began comes
first.

* `Linearization`: such an order, for one run.
* `Commits`: the method. A log grows with the run, an entry being added when a
  call takes effect; `Commits.linearized` reads the order off it.
-/
namespace Core

variable {σ τ ι α Λ : Type}

/-- What can be seen of the calls. -/
structure Calls (τ ι α : Type) where
  begun : τ → ι → Prop
  answered : τ → ι → α → Prop

/-- The one entry stands before the other. -/
def Precedes (log : List α) (e e' : α) : Prop := ∃ l₁ l₂ l₃, log = l₁ ++ e :: (l₂ ++ e' :: l₃)

/-- `log` is an order of the calls of the run `ls`, and leads an object that takes one call at a
time from `s₀` to `s`. -/
structure Linearization (C : Calls τ ι α) (T : LTS τ Λ) (M : LTS σ (ι × α)) (x₀ : τ) (ls : List Λ)
    (x : τ) (s₀ s : σ) (log : List (ι × α)) : Prop where
  run : M.Run s₀ log s
  once : (log.map Prod.fst).Nodup
  answered : ∀ i a, C.answered x i a → (i, a) ∈ log
  realTime : ∀ n y i a j b, T.Run x₀ (ls.take n) y → C.answered y i a → ¬ C.begun y j →
    (j, b) ∈ log → Precedes log (i, a) (j, b)

/-- `I log x`: `log` has the calls that took effect on the way to `x`. -/
structure Commits (C : Calls τ ι α) (T : LTS τ Λ) (I : List (ι × α) → τ → Prop) : Prop where
  det : ∀ x l y y', T.step x l y → T.step x l y' → y = y'
  answered : ∀ log x i a, I log x → C.answered x i a → (i, a) ∈ log
  unbegun : ∀ log x i a, I log x → ¬ C.begun x i → (i, a) ∉ log
  step : ∀ log x l x', I log x → T.step x l x' → ∃ new, I (log ++ new) x'

namespace Commits

variable {C : Calls τ ι α} {T : LTS τ Λ} {I : List (ι × α) → τ → Prop}

/-- On the way the log was a part of what it is in the end. -/
theorem run (h : Commits C T I) {x₀ x : τ} {ls : List Λ} {log : List (ι × α)} (h₀ : I log x₀)
    (r : T.Run x₀ ls x) : ∃ new, I (log ++ new) x ∧
      ∀ n y, T.Run x₀ (ls.take n) y → ∃ k, I (log ++ new.take k) y := by
  induction r generalizing log with
  | nil x =>
    refine ⟨[], by rwa [List.append_nil], fun n y r => ⟨0, ?_⟩⟩
    rw [List.take_nil] at r
    cases r
    rwa [List.take_nil, List.append_nil]
  | @cons x x₁ x₂ l ls hst _ ih =>
    obtain ⟨new, h₁⟩ := h.step log x l x₁ h₀ hst
    obtain ⟨rest, h₂, hway⟩ := ih h₁
    refine ⟨new ++ rest, by rwa [← List.append_assoc], fun n y r => ?_⟩
    cases n with
    | zero =>
      cases r
      exact ⟨0, by rwa [List.take_zero, List.append_nil]⟩
    | succ n =>
      rw [List.take_succ_cons] at r
      cases r with
      | cons hst' r =>
        rw [h.det x l _ _ hst' hst] at r
        obtain ⟨k, hk⟩ := hway n y r
        refine ⟨new.length + k, ?_⟩
        rwa [List.take_length_add_append, ← List.append_assoc]

/-- The log in the end is the order. -/
theorem linearized (h : Commits C T I) {M : LTS σ (ι × α)} {x₀ x : τ} {ls : List Λ} {s₀ : σ}
    {P : τ → σ → Prop} (hI : ∀ log x, I log x → (log.map Prod.fst).Nodup ∧
      ∃ s, M.Run s₀ log s ∧ P x s)
    (h₀ : I [] x₀) (r : T.Run x₀ ls x) :
    ∃ log s, Linearization C T M x₀ ls x s₀ s log ∧ P x s := by
  obtain ⟨log, hx, hway⟩ := h.run h₀ r
  rw [List.nil_append] at hx
  obtain ⟨honce, s, hs, hP⟩ := hI log x hx
  refine ⟨log, s, ⟨hs, honce, fun i a => h.answered log x i a hx, ?_⟩, hP⟩
  intro n y i a j b hy hi hj hmem
  obtain ⟨k, hk⟩ := hway n y hy
  rw [List.nil_append] at hk
  have hfirst := h.answered _ y i a hk hi
  have hlater : (j, b) ∈ log.drop k := by
    rw [← List.take_append_drop k log, List.mem_append] at hmem
    exact hmem.resolve_left (h.unbegun _ y j b hk hj)
  obtain ⟨l₁, l₂, htake⟩ := List.append_of_mem hfirst
  obtain ⟨l₃, l₄, hdrop⟩ := List.append_of_mem hlater
  refine ⟨l₁, l₂ ++ l₃, l₄, ?_⟩
  rw [← List.take_append_drop k log, htake, hdrop]
  simp

end Commits

end Core
