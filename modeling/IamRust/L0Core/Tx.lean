import Mathlib.Order.Defs.Unbundled

/-!
# Transactions

A transaction runs on a state and either succeeds with a result and a new
state or fails with an error, in which case the new state is lost. It is the
shape of a closure `FnOnce(&mut S) -> Result<R, E>` whose caller restores the
old state on `Err`.

* `Runs t s a s'`: `t` succeeds on `s` with result `a` in state `s'`. The
  `runs_*` lemmas invert a successful run into the guards it passed and the
  state it left, one lemma per primitive.
* `Keeps R t`: every successful run of `t` relates the states before and
  after by `R`. For a preorder `R` it follows from the parts, so a frame
  condition or an invariant is only looked at where the state is written.
-/
namespace Core

/-- What is mapped was there. -/
theorem map_eq_ok_iff {ε α β : Type} {r : Except ε α} {f : α → β} {b : β} :
    r.map f = .ok b ↔ ∃ a, r = .ok a ∧ f a = b := by
  cases r <;> simp [Except.map]

theorem toOption_eq_some {ε α : Type} {r : Except ε α} {a : α} :
    r.toOption = some a ↔ r = .ok a := by
  cases r <;> simp [Except.toOption]

/-- A transaction over the state `σ` with errors `ε`. -/
def Tx (ε σ α : Type) := σ → Except ε (α × σ)

namespace Tx

variable {ε σ α β : Type}

instance : Monad (Tx ε σ) where
  pure a := fun s => .ok (a, s)
  bind t f := fun s => match t s with
    | .ok (a, s') => f a s'
    | .error e => .error e

instance : MonadStateOf σ (Tx ε σ) where
  get := fun s => .ok (s, s)
  set s := fun _ => .ok ((), s)
  modifyGet f := fun s => .ok (f s)

/-- `return Err(e)`. -/
def fail (e : ε) : Tx ε σ α := fun _ => .error e

/-- `if c { return Err(e); }`. -/
def failIf (c : Prop) [Decidable c] (e : ε) : Tx ε σ Unit := if c then fail e else pure ()

/-- `o.ok_or(e)?`. -/
def okOr (o : Option α) (e : ε) : Tx ε σ α :=
  match o with
  | some a => pure a
  | none => fail e

/-- `r?`. -/
def ofExcept (r : Except ε α) : Tx ε σ α :=
  match r with
  | .ok a => pure a
  | .error e => fail e

/-- `if c { t }`. -/
def whenTrue (c : Prop) [Decidable c] (t : Tx ε σ Unit) : Tx ε σ Unit := if c then t else pure ()

/-- `if let Some(a) = o { f(a) }`. -/
def whenSome (o : Option α) (f : α → Tx ε σ Unit) : Tx ε σ Unit :=
  match o with
  | some a => f a
  | none => pure ()

/-- `for a in l { f(a) }`. -/
def forEach : List α → (α → Tx ε σ Unit) → Tx ε σ Unit
  | [], _ => pure ()
  | a :: l, f => do f a; forEach l f

/-- `l.into_iter().map(f).collect::<Result<Vec<_>, _>>()?`, in order. -/
def mapEach : List α → (α → Tx ε σ β) → Tx ε σ (List β)
  | [], _ => pure []
  | a :: l, f => do
    let b ← f a
    let bs ← mapEach l f
    pure (b :: bs)

/-- The result is dropped. -/
def void (t : Tx ε σ α) : Tx ε σ Unit := do
  let _ ← t
  pure ()

/-! ## Successful runs -/

def Runs (t : Tx ε σ α) (s : σ) (a : α) (s' : σ) : Prop := t s = .ok (a, s')

theorem Runs.det {t : Tx ε σ α} {s s₁ s₂ : σ} {a₁ a₂ : α} (h₁ : t.Runs s a₁ s₁)
    (h₂ : t.Runs s a₂ s₂) : a₁ = a₂ ∧ s₁ = s₂ := by
  unfold Runs at h₁ h₂
  rw [h₁] at h₂
  simpa using h₂

@[simp] theorem runs_bind {t : Tx ε σ α} {f : α → Tx ε σ β} {s s' : σ} {b : β} :
    (t >>= f).Runs s b s' ↔ ∃ a s₁, t.Runs s a s₁ ∧ (f a).Runs s₁ b s' := by
  unfold Runs
  constructor
  · intro h
    cases ht : t s with
    | error e => simp [bind, ht] at h
    | ok p => exact ⟨p.1, p.2, rfl, by simpa [bind, ht] using h⟩
  · rintro ⟨a, s₁, ht, hf⟩
    simp [bind, ht, hf]

@[simp] theorem runs_pure {a b : α} {s s' : σ} :
    (pure a : Tx ε σ α).Runs s b s' ↔ b = a ∧ s' = s := by
  simp [Runs, pure, eq_comm]

@[simp] theorem runs_fail {e : ε} {b : α} {s s' : σ} : ¬ (fail e : Tx ε σ α).Runs s b s' := by
  simp [Runs, fail]

@[simp] theorem runs_get {a s s' : σ} : (get : Tx ε σ σ).Runs s a s' ↔ a = s ∧ s' = s := by
  simp [Runs, get, getThe, MonadStateOf.get, eq_comm]

@[simp] theorem runs_modify {f : σ → σ} {u : PUnit} {s s' : σ} :
    (modify f : Tx ε σ PUnit).Runs s u s' ↔ s' = f s := by
  show Except.ok (PUnit.unit, f s) = .ok (u, s') ↔ s' = f s
  simp [eq_comm]

@[simp] theorem runs_failIf {c : Prop} [Decidable c] {e : ε} {u : Unit} {s s' : σ} :
    (failIf c e).Runs s u s' ↔ ¬ c ∧ s' = s := by
  unfold failIf; split <;> simp [*]

@[simp] theorem runs_okOr {o : Option α} {e : ε} {a : α} {s s' : σ} :
    (okOr o e).Runs s a s' ↔ o = some a ∧ s' = s := by
  cases o <;> simp [okOr, eq_comm]

@[simp] theorem runs_ofExcept {r : Except ε α} {a : α} {s s' : σ} :
    (ofExcept r).Runs s a s' ↔ r = .ok a ∧ s' = s := by
  cases r <;> simp [ofExcept, eq_comm]

@[simp] theorem runs_whenTrue {c : Prop} [Decidable c] {t : Tx ε σ Unit} {u : Unit} {s s' : σ} :
    (whenTrue c t).Runs s u s' ↔ (c ∧ t.Runs s u s') ∨ (¬ c ∧ s' = s) := by
  unfold whenTrue; split <;> simp [*]

@[simp] theorem runs_whenSome {o : Option α} {f : α → Tx ε σ Unit} {u : Unit} {s s' : σ} :
    (whenSome o f).Runs s u s' ↔ (∃ a, o = some a ∧ (f a).Runs s u s') ∨ (o = none ∧ s' = s) := by
  cases o <;> simp [whenSome]

@[simp] theorem runs_void {t : Tx ε σ α} {u : Unit} {s s' : σ} :
    t.void.Runs s u s' ↔ ∃ a, t.Runs s a s' := by
  simp [void]

/-! Sequencing behind a primitive that does not write: the intermediate state
is the one before. -/

@[simp] theorem runs_get_bind {f : σ → Tx ε σ β} {s s' : σ} {b : β} :
    ((get : Tx ε σ σ) >>= f).Runs s b s' ↔ (f s).Runs s b s' := Iff.rfl

@[simp] theorem runs_modify_bind {g : σ → σ} {f : PUnit → Tx ε σ β} {s s' : σ} {b : β} :
    ((modify g : Tx ε σ PUnit) >>= f).Runs s b s' ↔ (f ⟨⟩).Runs (g s) b s' := Iff.rfl

@[simp] theorem runs_failIf_bind {c : Prop} [Decidable c] {e : ε} {f : Unit → Tx ε σ β}
    {s s' : σ} {b : β} : (failIf c e >>= f).Runs s b s' ↔ ¬ c ∧ (f ()).Runs s b s' := by
  unfold failIf
  split
  · simp [*]
  · simp only [not_false_eq_true, true_and, *]; exact Iff.rfl

@[simp] theorem runs_okOr_bind {o : Option α} {e : ε} {f : α → Tx ε σ β} {s s' : σ} {b : β} :
    (okOr o e >>= f).Runs s b s' ↔ ∃ a, o = some a ∧ (f a).Runs s b s' := by
  cases o
  · simp [okOr]
  · simp only [Option.some.injEq, exists_eq_left']; exact Iff.rfl

@[simp] theorem runs_ofExcept_bind {r : Except ε α} {f : α → Tx ε σ β} {s s' : σ} {b : β} :
    (ofExcept r >>= f).Runs s b s' ↔ ∃ a, r = .ok a ∧ (f a).Runs s b s' := by
  cases r
  · simp [ofExcept]
  · simp only [Except.ok.injEq, exists_eq_left']; exact Iff.rfl

/-! ## Relations kept by a transaction

`Keeps` is a class: for a transaction written with the primitives above the
instance is found by following its text, down to the instances given for the
functions it calls and for the places where it writes. -/

/-- Every successful run of `t` relates the states before and after by `R`. -/
class Keeps (R : σ → σ → Prop) (t : Tx ε σ α) : Prop where
  runs : ∀ {s a s'}, t.Runs s a s' → R s s'

theorem keeps_modify {R : σ → σ → Prop} {f : σ → σ} (h : ∀ s, R s (f s)) :
    Keeps R (modify f : Tx ε σ PUnit) where
  runs h' := by
    rw [runs_modify.mp h']
    exact h _

instance keeps_fail {R : σ → σ → Prop} {e : ε} : Keeps R (fail e : Tx ε σ α) :=
  ⟨fun h => absurd h runs_fail⟩

instance keeps_ite {R : σ → σ → Prop} {c : Prop} [Decidable c] {t u : Tx ε σ α} [Keeps R t]
    [Keeps R u] : Keeps R (if c then t else u) := by
  split <;> infer_instance

section
variable {R : σ → σ → Prop} [IsPreorder σ R]

instance keeps_pure {a : α} : Keeps R (pure a : Tx ε σ α) where
  runs h := by
    rw [(runs_pure.mp h).2]
    exact refl _

instance keeps_get : Keeps R (get : Tx ε σ σ) where
  runs h := by
    rw [(runs_get.mp h).2]
    exact refl _

instance keeps_failIf {c : Prop} [Decidable c] {e : ε} : Keeps R (failIf c e) := by
  unfold failIf; infer_instance

instance keeps_okOr {o : Option α} {e : ε} : Keeps R (okOr o e) := by
  cases o <;> simp only [okOr] <;> infer_instance

instance keeps_ofExcept {r : Except ε α} : Keeps R (ofExcept r) := by
  cases r <;> simp only [ofExcept] <;> infer_instance

instance keeps_bind {t : Tx ε σ α} {f : α → Tx ε σ β} [ht : Keeps R t] [hf : ∀ a, Keeps R (f a)] :
    Keeps R (t >>= f) where
  runs h := by
    obtain ⟨a, s₁, h₁, h₂⟩ := runs_bind.mp h
    exact IsTrans.trans _ _ _ (ht.runs h₁) ((hf a).runs h₂)

instance keeps_void {t : Tx ε σ α} [Keeps R t] : Keeps R t.void := by
  unfold void; infer_instance

instance keeps_whenTrue {c : Prop} [Decidable c] {t : Tx ε σ Unit} [Keeps R t] :
    Keeps R (whenTrue c t) := by
  unfold whenTrue; infer_instance

instance keeps_whenSome {o : Option α} {f : α → Tx ε σ Unit} [∀ a, Keeps R (f a)] :
    Keeps R (whenSome o f) := by
  cases o <;> simp only [whenSome] <;> infer_instance

instance keeps_forEach {f : α → Tx ε σ Unit} [∀ a, Keeps R (f a)] (l : List α) :
    Keeps R (forEach l f) := by
  induction l <;> simp only [forEach] <;> infer_instance

instance keeps_mapEach {f : α → Tx ε σ β} [∀ a, Keeps R (f a)] (l : List α) :
    Keeps R (mapEach l f) := by
  induction l <;> simp only [mapEach] <;> infer_instance

end

/-- `I` holds after the run if it held before. -/
def Preserving (I : σ → Prop) (s s' : σ) : Prop := I s → I s'

instance (I : σ → Prop) : IsPreorder σ (Preserving I) where
  refl _ h := h
  trans _ _ _ h₁ h₂ h := h₂ (h₁ h)

/-! Rules that use a guard: behind it the rest of the transaction may assume it. -/

section
variable {R : σ → σ → Prop} {e : ε}

theorem keeps_then [IsPreorder σ R] {t : Tx ε σ α} {f : α → Tx ε σ β} (ht : Keeps R t)
    (hf : ∀ a, Keeps R (f a)) : Keeps R (t >>= f) := inferInstance

theorem keeps_failIf_then {c : Prop} [Decidable c] {f : Unit → Tx ε σ β}
    (h : ¬ c → Keeps R (f ())) : Keeps R (failIf c e >>= f) where
  runs hr := by
    obtain ⟨hc, hr⟩ := runs_failIf_bind.mp hr
    exact (h hc).runs hr

theorem keeps_okOr_then {o : Option α} {f : α → Tx ε σ β} (h : ∀ a, o = some a → Keeps R (f a)) :
    Keeps R (okOr o e >>= f) where
  runs hr := by
    obtain ⟨a, ha, hr⟩ := runs_okOr_bind.mp hr
    exact (h a ha).runs hr

theorem keeps_ofExcept_then {r : Except ε α} {f : α → Tx ε σ β}
    (h : ∀ a, r = .ok a → Keeps R (f a)) : Keeps R (ofExcept r >>= f) where
  runs hr := by
    obtain ⟨a, ha, hr⟩ := runs_ofExcept_bind.mp hr
    exact (h a ha).runs hr

theorem keeps_forEach_mem [IsPreorder σ R] {l : List α} {f : α → Tx ε σ Unit}
    (h : ∀ a ∈ l, Keeps R (f a)) : Keeps R (forEach l f) := by
  induction l with
  | nil => unfold forEach; infer_instance
  | cons a l ih =>
    unfold forEach
    exact keeps_then (h a List.mem_cons_self) fun _ =>
      ih fun b hb => h b (List.mem_cons_of_mem a hb)

/-- What every pass of a loop guarantees holds behind it. -/
theorem runs_forEach {P : α → Prop} {f : α → Tx ε σ Unit}
    (hP : ∀ {a s s'}, (f a).Runs s () s' → P a) {l : List α} {s s' : σ} {u : Unit}
    (h : (forEach l f).Runs s u s') : ∀ a ∈ l, P a := by
  induction l generalizing s with
  | nil => simp
  | cons b l ih =>
    obtain ⟨_, s₁, hb, hl⟩ := runs_bind.mp h
    intro a ha
    rcases List.mem_cons.mp ha with rfl | ha
    · exact hP hb
    · exact ih hl a ha

theorem exists_bind {t : Tx ε σ α} {f : α → Tx ε σ β} {s s₁ : σ} {a : α} (ht : t.Runs s a s₁)
    (hf : ∃ b s', (f a).Runs s₁ b s') : ∃ b s', (t >>= f).Runs s b s' :=
  have ⟨b, s', hf⟩ := hf
  ⟨b, s', runs_bind.mpr ⟨a, s₁, ht, hf⟩⟩

/-- What follows succeeds in any state. -/
theorem exists_bind_any {t : Tx ε σ α} {f : α → Tx ε σ β} {s : σ} (ht : ∃ a s₁, t.Runs s a s₁)
    (hf : ∀ a s₁, ∃ b s', (f a).Runs s₁ b s') : ∃ b s', (t >>= f).Runs s b s' :=
  have ⟨a, s₁, ht⟩ := ht
  exists_bind ht (hf a s₁)

/-- A loop whose passes run as long as the invariant holds. -/
theorem forEach_runs {I : σ → Prop} {f : α → Tx ε σ Unit} {l : List α}
    (h : ∀ a ∈ l, ∀ s, I s → ∃ s', (f a).Runs s () s' ∧ I s') {s : σ} (hs : I s) :
    ∃ s', (forEach l f).Runs s () s' ∧ I s' := by
  induction l generalizing s with
  | nil => exact ⟨s, runs_pure.mpr ⟨rfl, rfl⟩, hs⟩
  | cons a l ih =>
    obtain ⟨s₁, ha, h₁⟩ := h a List.mem_cons_self s hs
    obtain ⟨s', hl, h'⟩ := ih (fun b hb => h b (List.mem_cons_of_mem a hb)) h₁
    exact ⟨s', runs_bind.mpr ⟨_, s₁, ha, hl⟩, h'⟩

/-- A loop over one map: every pass writes the keys it is for, and to write one twice changes
nothing more. -/
theorem forEach_upserts {κ υ : Type} {I : σ → Prop} {o : σ → κ → Option υ} {P : α → κ → Prop}
    [∀ a k, Decidable (P a k)] {d : κ → υ} {g : κ → υ → υ} (hg : ∀ k v, g k (g k v) = g k v)
    {f : α → Tx ε σ Unit} (hpass : ∀ {a s s'}, I s → (f a).Runs s () s' → I s' ∧
      ∀ k, o s' k = if P a k then some (g k ((o s k).getD (d k))) else o s k)
    {l : List α} {s s' : σ} {u : Unit} (hs : I s) (h : (forEach l f).Runs s u s') : I s' ∧
      ∀ k, o s' k = if ∃ a ∈ l, P a k then some (g k ((o s k).getD (d k))) else o s k := by
  induction l generalizing s with
  | nil =>
    obtain ⟨-, rfl⟩ := runs_pure.mp h
    exact ⟨hs, fun k => by simp⟩
  | cons b l ih =>
    obtain ⟨_, s₁, hb, hl⟩ := runs_bind.mp h
    obtain ⟨hs₁, hfirst⟩ := hpass hs hb
    obtain ⟨hs', hrest⟩ := ih hs₁ hl
    refine ⟨hs', fun k => ?_⟩
    rw [hrest k, hfirst k]
    by_cases hk : P b k <;> by_cases hr : ∃ a ∈ l, P a k <;> simp [hk, hr, hg]

theorem keeps_forEach_then [IsPreorder σ R] {P : α → Prop} {f : α → Tx ε σ Unit}
    (hP : ∀ {a s s'}, (f a).Runs s () s' → P a) {l : List α} [Keeps R (forEach l f)]
    {t : Unit → Tx ε σ β} (h : (∀ a ∈ l, P a) → Keeps R (t ())) :
    Keeps R (forEach l f >>= t) where
  runs hr := by
    obtain ⟨_, s₁, hl, hr⟩ := runs_bind.mp hr
    exact IsTrans.trans _ _ _ (Keeps.runs (R := R) hl) ((h (runs_forEach hP hl)).runs hr)

/-- The state read satisfies the invariant. -/
theorem keeps_get_then {I : σ → Prop} {f : σ → Tx ε σ β}
    (h : ∀ s, I s → Keeps (Preserving I) (f s)) : Keeps (Preserving I) (get >>= f) where
  runs hr hI := (h _ hI).runs (runs_get_bind.mp hr) hI

end

/-! ## Commit -/

/-- The caller of a transaction: the new state on success, the old one on failure. -/
def commit (t : Tx ε σ α) (s : σ) : Except ε α × σ :=
  match t s with
  | .ok (a, s') => (.ok a, s')
  | .error e => (.error e, s)

theorem commit_of_runs {t : Tx ε σ α} {s s' : σ} {a : α} (h : t.Runs s a s') :
    t.commit s = (.ok a, s') := by
  unfold Runs at h
  simp [commit, h]

/-- A transaction that fails is not noticed in the state. -/
theorem commit_cases (t : Tx ε σ α) (s : σ) : (∃ a s', t.Runs s a s' ∧ t.commit s = (.ok a, s')) ∨
    ∃ e, t.commit s = (.error e, s) := by
  cases h : t s with
  | ok r => exact .inl ⟨r.1, r.2, h, commit_of_runs h⟩
  | error e => exact .inr ⟨e, by simp [commit, h]⟩

/-- A relation kept by a transaction is kept by its commit, failed or not. -/
theorem Keeps.commit {R : σ → σ → Prop} [IsPreorder σ R] {t : Tx ε σ α} (ht : Keeps R t) (s : σ) :
    R s (t.commit s).2 := by
  unfold Tx.commit
  split
  · exact ht.runs ‹_›
  · exact refl s

end Tx

end Core
