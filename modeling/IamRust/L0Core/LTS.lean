/-!
# Labelled transition systems

Reachable states, runs and inductive invariants. `M.restrict ok` keeps the
steps that meet `ok`, a condition on the state before the step and its label:
an invariant of `M.restrict ok` holds in every run of `M` whose steps all
meet the condition.
-/
namespace Core

structure LTS (σ Λ : Type) where
  init : σ → Prop
  step : σ → Λ → σ → Prop

namespace LTS

variable {σ Λ : Type}

/-- `M.Run s ls s'`: the steps `ls` lead from `s` to `s'`. -/
inductive Run (M : LTS σ Λ) : σ → List Λ → σ → Prop where
  | nil (s : σ) : Run M s [] s
  | cons {s s₁ s₂ : σ} {l : Λ} {ls : List Λ} (h : M.step s l s₁) (r : Run M s₁ ls s₂) :
    Run M s (l :: ls) s₂

def Reachable (M : LTS σ Λ) (s : σ) : Prop := ∃ s₀ ls, M.init s₀ ∧ M.Run s₀ ls s

/-- The steps that meet `ok`. -/
def restrict (M : LTS σ Λ) (ok : σ → Λ → Prop) : LTS σ Λ where
  init := M.init
  step s l s' := ok s l ∧ M.step s l s'

/-- `I` holds initially and is preserved by every step. -/
structure Inductive (M : LTS σ Λ) (I : σ → Prop) : Prop where
  init : ∀ s, M.init s → I s
  step : ∀ s l s', I s → M.step s l s' → I s'

theorem Run.append {M : LTS σ Λ} {s s₁ s₂ : σ} {ls ls' : List Λ} (h : M.Run s ls s₁)
    (h' : M.Run s₁ ls' s₂) : M.Run s (ls ++ ls') s₂ := by
  induction h with
  | nil => exact h'
  | cons hs _ ih => exact .cons hs (ih h')

theorem Run.snoc {M : LTS σ Λ} {s s₁ s₂ : σ} {ls : List Λ} {l : Λ} (h : M.Run s ls s₁)
    (hs : M.step s₁ l s₂) : M.Run s (ls ++ [l]) s₂ :=
  h.append (.cons hs (.nil _))

/-- What every step preserves, every run preserves. -/
theorem Run.preserves {M : LTS σ Λ} {I : σ → Prop}
    (hI : ∀ s l s', I s → M.step s l s' → I s') {s s' : σ} {ls : List Λ} (h : M.Run s ls s')
    (hs : I s) : I s' := by
  induction h with
  | nil => exact hs
  | cons hst _ ih => exact ih (hI _ _ _ hs hst)

/-- A reflexive and transitive relation every step keeps, every run keeps. -/
theorem Run.relates {M : LTS σ Λ} {R : σ → σ → Prop} (hr : ∀ s, R s s)
    (ht : ∀ a b c, R a b → R b c → R a c) (hR : ∀ s l s', M.step s l s' → R s s') {s s' : σ}
    {ls : List Λ} (h : M.Run s ls s') : R s s' := by
  induction h with
  | nil => exact hr _
  | cons hst _ ih => exact ht _ _ _ (hR _ _ _ hst) ih

/-- What holds at the end of a run and not at its start, a step of the run brought about. -/
theorem Run.crosses {M : LTS σ Λ} {P : σ → Prop} {s s' : σ} {ls : List Λ} (h : M.Run s ls s')
    (hs : ¬ P s) (hs' : P s') : ∃ before l after s₁ s₂, ls = before ++ l :: after ∧
      M.Run s before s₁ ∧ M.step s₁ l s₂ ∧ M.Run s₂ after s' ∧ ¬ P s₁ ∧ P s₂ := by
  induction h with
  | nil => exact absurd hs' hs
  | @cons s s₁ s₂ l ls hst hrest ih =>
    by_cases h₁ : P s₁
    · exact ⟨[], l, ls, s, s₁, rfl, .nil s, hst, hrest, hs, h₁⟩
    · obtain ⟨before, l', after, v₁, v₂, rfl, hbefore, hst', hafter, h⟩ := ih h₁ hs'
      exact ⟨l :: before, l', after, v₁, v₂, rfl, .cons hst hbefore, hst', hafter, h⟩

/-- An entry of a log that every step extends was appended by a step of the run. -/
theorem Run.appended {M : LTS σ Λ} {α : Type} {log : σ → List α}
    (hlog : ∀ s l s', M.step s l s' → ∃ new, log s' = log s ++ new) {s s' : σ} {ls : List Λ}
    (h : M.Run s ls s') {e : α} (he : e ∈ (log s').drop (log s).length) :
    ∃ before l after s₁ s₂, ls = before ++ l :: after ∧ M.Run s before s₁ ∧ M.step s₁ l s₂ ∧
      M.Run s₂ after s' ∧ e ∈ (log s₂).drop (log s₁).length := by
  induction h with
  | nil => simp at he
  | @cons s s₁ s' l ls hst r ih =>
    obtain ⟨new, hnew⟩ := hlog s l s₁ hst
    obtain ⟨rest, hrest⟩ : ∃ rest, log s' = log s₁ ++ rest :=
      r.relates (R := fun a b => ∃ rest, log b = log a ++ rest) (fun _ => ⟨[], by simp⟩)
        (fun a b c ⟨r₁, h₁⟩ ⟨r₂, h₂⟩ => ⟨r₁ ++ r₂, by rw [h₂, h₁, List.append_assoc]⟩) hlog
    rw [hrest, hnew, List.append_assoc, List.drop_left] at he
    rcases List.mem_append.mp he with he | he
    · refine ⟨[], l, ls, s, s₁, rfl, .nil s, hst, r, ?_⟩
      rwa [hnew, List.drop_left]
    · obtain ⟨before, l', after, t₁, t₂, rfl, hbefore, hst', hafter, hmem⟩ :=
        ih (by rwa [hrest, List.drop_left])
      exact ⟨l :: before, l', after, t₁, t₂, rfl, .cons hst hbefore, hst', hafter, hmem⟩

theorem Run.of_restrict {M : LTS σ Λ} {ok : σ → Λ → Prop} {s s' : σ} {ls : List Λ}
    (h : (M.restrict ok).Run s ls s') : M.Run s ls s' := by
  induction h with
  | nil => exact .nil _
  | cons hst _ ih => exact .cons hst.2 ih

/-- Steps that meet the condition in every state. -/
theorem Run.restrict {M : LTS σ Λ} {ok : σ → Λ → Prop} {s s' : σ} {ls : List Λ}
    (h : M.Run s ls s') (hok : ∀ l ∈ ls, ∀ s, ok s l) : (M.restrict ok).Run s ls s' := by
  induction h with
  | nil => exact .nil _
  | cons hst _ ih =>
    exact .cons ⟨hok _ List.mem_cons_self _, hst⟩
      (ih fun l hl => hok l (List.mem_cons_of_mem _ hl))

theorem Reachable.init {M : LTS σ Λ} {s : σ} (h : M.init s) : M.Reachable s :=
  ⟨s, [], h, .nil s⟩

theorem Reachable.run {M : LTS σ Λ} {s s' : σ} {ls : List Λ} (h : M.Reachable s)
    (r : M.Run s ls s') : M.Reachable s' := by
  obtain ⟨s₀, ls₀, h₀, r₀⟩ := h
  exact ⟨s₀, ls₀ ++ ls, h₀, r₀.append r⟩

theorem Reachable.step {M : LTS σ Λ} {s s' : σ} {l : Λ} (h : M.Reachable s)
    (hs : M.step s l s') : M.Reachable s' :=
  h.run (.cons hs (.nil _))

theorem Reachable.restrict {M : LTS σ Λ} {ok : σ → Λ → Prop} {s : σ} (h : M.Reachable s)
    (hok : ∀ s l, ok s l) : (M.restrict ok).Reachable s := by
  obtain ⟨s₀, ls, h₀, r⟩ := h
  exact ⟨s₀, ls, h₀, r.restrict fun l _ s => hok s l⟩

theorem Reachable.of_restrict {M : LTS σ Λ} {ok : σ → Λ → Prop} {s : σ}
    (h : (M.restrict ok).Reachable s) : M.Reachable s := by
  obtain ⟨s₀, ls, h₀, r⟩ := h
  exact ⟨s₀, ls, h₀, r.of_restrict⟩

/-- A condition that the steps of the run meet where it gets. -/
theorem Reachable.restrict_of {M : LTS σ Λ} {ok ok' : σ → Λ → Prop} {s : σ}
    (h : (M.restrict ok).Reachable s)
    (hok : ∀ s l, (M.restrict ok).Reachable s → ok s l → ok' s l) : (M.restrict ok').Reachable s := by
  obtain ⟨s₀, ls, h₀, r⟩ := h
  suffices h : ∀ {a b : σ} {ls : List Λ}, (M.restrict ok).Reachable a → (M.restrict ok).Run a ls b →
      (M.restrict ok').Run a ls b from ⟨s₀, ls, h₀, h (Reachable.init h₀) r⟩
  intro a b ls ha r
  induction r with
  | nil => exact .nil _
  | cons hst _ ih => exact .cons ⟨hok _ _ ha hst.1, hst.2⟩ (ih (ha.step hst))

/-- A map that takes steps to steps takes runs to runs. -/
theorem Run.map {τ : Type} {M : LTS σ Λ} {N : LTS τ Λ} (f : σ → τ)
    (hf : ∀ s l s', M.step s l s' → N.step (f s) l (f s')) {s s' : σ} {ls : List Λ}
    (h : M.Run s ls s') : N.Run (f s) ls (f s') := by
  induction h with
  | nil => exact .nil _
  | cons hst _ ih => exact .cons (hf _ _ _ hst) ih

theorem Reachable.map {τ : Type} {M : LTS σ Λ} {N : LTS τ Λ} (f : σ → τ)
    (h0 : ∀ s, M.init s → N.init (f s)) (hf : ∀ s l s', M.step s l s' → N.step (f s) l (f s'))
    {s : σ} (h : M.Reachable s) : N.Reachable (f s) := by
  obtain ⟨s₀, ls, hs₀, r⟩ := h
  exact ⟨f s₀, ls, h0 s₀ hs₀, r.map f hf⟩

theorem Inductive.reachable {M : LTS σ Λ} {I : σ → Prop} (h : M.Inductive I) {s : σ}
    (hs : M.Reachable s) : I s := by
  obtain ⟨s₀, ls, h₀, r⟩ := hs
  exact r.preserves h.step (h.init _ h₀)

/-! ## Schedules -/

/-- The state the labels lead to, if every step can be taken. -/
def exec (next : σ → Λ → Option σ) : List Λ → σ → Option σ
  | [], s => some s
  | l :: ls, s =>
    match next s l with
    | none => none
    | some s' => exec next ls s'

theorem run_of_exec {M : LTS σ Λ} {next : σ → Λ → Option σ} {ls : List Λ}
    (hnext : ∀ s, ∀ l ∈ ls, ∀ s', next s l = some s' → M.step s l s') {s s' : σ}
    (h : exec next ls s = some s') : M.Run s ls s' := by
  induction ls generalizing s with
  | nil =>
    cases h
    exact .nil _
  | cons l ls ih =>
    simp only [exec] at h
    split at h
    · cases h
    · rename_i s₁ hs
      exact .cons (hnext s l List.mem_cons_self s₁ hs)
        (ih (fun s l hl => hnext s l (List.mem_cons_of_mem _ hl)) h)

/-- A state that a schedule reaches, with what can be computed about it. -/
theorem reaches_of_exec {M : LTS σ Λ} {next : σ → Λ → Option σ} {s : σ} (hs : M.init s)
    (ls : List Λ) (hnext : ∀ s, ∀ l ∈ ls, ∀ s', next s l = some s' → M.step s l s')
    (p : σ → Bool) (h : (exec next ls s).any p = true) : ∃ s', M.Reachable s' ∧ p s' = true := by
  obtain ⟨s', hs', hp⟩ := (Option.any_eq_true ..).mp h
  exact ⟨s', ⟨s, ls, hs, run_of_exec hnext hs'⟩, hp⟩

end LTS

end Core
