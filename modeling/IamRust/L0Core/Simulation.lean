import IamRust.L0Core.Map
import IamRust.L0Core.Tx
import Mathlib.Data.List.Forall2
import Mathlib.Data.List.Sort

/-!
# Two stores side by side

One store holds in a representation of its own what the other holds as it is.

* `Tx.Simulated R t t'`: what `t` does to the first store, `t'` does to the
  second, where `R` says which stores stand for each other. It follows from the
  parts of the two transactions.
* `Map.Matches R m m'`: the same keys, with values that `R` relates. Whatever
  is listed of two such maps is listed in the same order
  (`Map.Matches.entries`), also sorted by something `R` respects.
-/
namespace Core

namespace Tx

variable {ε ε' σ τ α β γ δ : Type}

/-- Every successful run of `t` is matched by one of `t'` with the same result. -/
def Simulated (R : σ → τ → Prop) (t : Tx ε σ α) (t' : Tx ε' τ α) : Prop :=
  ∀ s a s₁ p, R s p → t.Runs s a s₁ → ∃ p₁, t'.Runs p a p₁ ∧ R s₁ p₁

variable {R : σ → τ → Prop}

theorem simulated_pure {a : α} :
    Simulated R (pure a : Tx ε σ α) (pure a : Tx ε' τ α) := by
  intro s b s₁ p h hr
  obtain ⟨rfl, rfl⟩ := runs_pure.mp hr
  exact ⟨p, runs_pure.mpr ⟨rfl, rfl⟩, h⟩

theorem simulated_modify {f : σ → σ} {g : τ → τ} (h : ∀ s p, R s p → R (f s) (g p)) :
    Simulated R (modify f : Tx ε σ PUnit) (modify g : Tx ε' τ PUnit) := by
  intro s a s₁ p hsp hr
  rw [runs_modify.mp hr]
  exact ⟨g p, runs_modify.mpr rfl, h s p hsp⟩

theorem Simulated.bind {t : Tx ε σ α} {t' : Tx ε' τ α} {f : α → Tx ε σ β} {g : α → Tx ε' τ β}
    (ht : Simulated R t t') (hf : ∀ a, Simulated R (f a) (g a)) :
    Simulated R (t >>= f) (t' >>= g) := by
  intro s b s₂ p hsp hr
  obtain ⟨a, s₁, hr₁, hr₂⟩ := runs_bind.mp hr
  obtain ⟨p₁, hp₁, h₁⟩ := ht s a s₁ p hsp hr₁
  obtain ⟨p₂, hp₂, h₂⟩ := hf a s₁ b s₂ p₁ h₁ hr₂
  exact ⟨p₂, runs_bind.mpr ⟨a, p₁, hp₁, hp₂⟩, h₂⟩

/-- What the first guard lets through, the second does. -/
theorem simulated_failIf_then {c d : Prop} [Decidable c] [Decidable d] {e : ε} {e' : ε'}
    {f : Unit → Tx ε σ β} {g : Unit → Tx ε' τ β} (hd : ¬ c → ¬ d)
    (h : ¬ c → Simulated R (f ()) (g ())) : Simulated R (failIf c e >>= f) (failIf d e' >>= g) := by
  intro s b s₁ p hsp hr
  obtain ⟨hc, hr⟩ := runs_failIf_bind.mp hr
  obtain ⟨p₁, hp₁, h₁⟩ := h hc s b s₁ p hsp hr
  exact ⟨p₁, runs_failIf_bind.mpr ⟨hd hc, hp₁⟩, h₁⟩

/-- The two go on with what each was given. -/
theorem simulated_ofExcept_then {r : Except ε γ} {r' : Except ε' δ} {f : γ → Tx ε σ β}
    {g : δ → Tx ε' τ β}
    (h : ∀ c, r = .ok c → ∃ d, r' = .ok d ∧ Simulated R (f c) (g d)) :
    Simulated R (ofExcept r >>= f) (ofExcept r' >>= g) := by
  intro s b s₁ p hsp hr
  obtain ⟨c, hc, hr⟩ := runs_ofExcept_bind.mp hr
  obtain ⟨d, hd, hfg⟩ := h c hc
  obtain ⟨p₁, hp₁, h₁⟩ := hfg s b s₁ p hsp hr
  exact ⟨p₁, runs_ofExcept_bind.mpr ⟨d, hd, hp₁⟩, h₁⟩

theorem simulated_forEach {l : List α} {f : α → Tx ε σ Unit} {g : α → Tx ε' τ Unit}
    (h : ∀ a ∈ l, Simulated R (f a) (g a)) : Simulated R (forEach l f) (forEach l g) := by
  induction l with
  | nil => exact simulated_pure
  | cons a l ih =>
    exact (h a List.mem_cons_self).bind fun _ =>
      ih fun b hb => h b (List.mem_cons_of_mem a hb)

end Tx

/-! ## Lists -/

section
variable {α β γ : Type} {R : α → β → Prop} {l : List α} {l' : List β}

theorem map_eq_of_forall₂ {f : α → γ} {g : β → γ} (h : List.Forall₂ R l l')
    (hfg : ∀ a b, R a b → f a = g b) : l.map f = l'.map g := by
  induction h with
  | nil => rfl
  | cons hab _ ih => rw [List.map_cons, List.map_cons, hfg _ _ hab, ih]

theorem any_eq_of_forall₂ {f : α → Bool} {g : β → Bool} (h : List.Forall₂ R l l')
    (hfg : ∀ a b, R a b → f a = g b) : l.any f = l'.any g := by
  induction h with
  | nil => rfl
  | cons hab _ ih => rw [List.any_cons, List.any_cons, hfg _ _ hab, ih]

theorem forall₂_filter {f : α → Bool} {g : β → Bool} (h : List.Forall₂ R l l')
    (hfg : ∀ a b, R a b → f a = g b) : List.Forall₂ R (l.filter f) (l'.filter g) := by
  induction h with
  | nil => exact .nil
  | cons hab _ ih =>
    rw [List.filter_cons, List.filter_cons, hfg _ _ hab]
    split
    · exact .cons hab ih
    · exact ih

section
variable {r : α → α → Prop} {r' : β → β → Prop} [DecidableRel r] [DecidableRel r']

theorem forall₂_orderedInsert {a : α} {b : β} (hab : R a b) (h : List.Forall₂ R l l')
    (hr : ∀ a b a' b', R a b → R a' b' → (r a a' ↔ r' b b')) :
    List.Forall₂ R (l.orderedInsert r a) (l'.orderedInsert r' b) := by
  induction h with
  | nil => exact .cons hab .nil
  | @cons c d l l' hcd htail ih =>
    rw [List.orderedInsert_cons, List.orderedInsert_cons]
    by_cases hle : r a c
    · rw [if_pos hle, if_pos ((hr _ _ _ _ hab hcd).mp hle)]
      exact .cons hab (.cons hcd htail)
    · rw [if_neg hle, if_neg (mt (hr _ _ _ _ hab hcd).mpr hle)]
      exact .cons hcd ih

/-- Lists sorted by what the relation respects. -/
theorem forall₂_insertionSort (h : List.Forall₂ R l l')
    (hr : ∀ a b a' b', R a b → R a' b' → (r a a' ↔ r' b b')) :
    List.Forall₂ R (l.insertionSort r) (l'.insertionSort r') := by
  induction h with
  | nil => exact .nil
  | cons hab _ ih =>
    rw [List.insertionSort_cons, List.insertionSort_cons]
    exact forall₂_orderedInsert hab ih hr

end

/-- Pairs with the same keys in the same order. -/
theorem forall₂_of_keys {κ : Type} {R : κ × α → κ × β → Prop} {l : List (κ × α)}
    {l' : List (κ × β)} (hkeys : l.map Prod.fst = l'.map Prod.fst)
    (h : ∀ e ∈ l, ∀ e' ∈ l', e.1 = e'.1 → R e e') : List.Forall₂ R l l' := by
  induction l generalizing l' with
  | nil =>
    rw [List.map_nil, eq_comm, List.map_eq_nil_iff] at hkeys
    rw [hkeys]
    exact .nil
  | cons e l ih =>
    cases l' with
    | nil => cases hkeys
    | cons e' l' =>
      rw [List.map_cons, List.map_cons, List.cons.injEq] at hkeys
      refine .cons (h e List.mem_cons_self e' List.mem_cons_self hkeys.1) (ih hkeys.2 ?_)
      exact fun a ha a' ha' => h a (List.mem_cons_of_mem e ha) a' (List.mem_cons_of_mem e' ha')

end

/-! ## Maps -/

section
variable {α β : Type} {R S : α → β → Prop} {o : Option α} {o' : Option β}

theorem rel_cases (h : Option.Rel R o o') :
    (o = none ∧ o' = none) ∨ ∃ a b, o = some a ∧ o' = some b ∧ R a b := by
  cases h with
  | none => exact .inl ⟨rfl, rfl⟩
  | some hab => exact .inr ⟨_, _, rfl, rfl, hab⟩

theorem rel_imp (h : Option.Rel R o o') (hRS : ∀ a b, R a b → S a b) : Option.Rel S o o' := by
  cases h with
  | none => exact .none
  | some hab => exact .some (hRS _ _ hab)

end

namespace Map

variable {κ υ ω : Type} [Ord κ] [Std.TransOrd κ]

/-- The same keys, with values that `R` relates. -/
def Matches (R : υ → ω → Prop) (m : Map κ υ) (m' : Map κ ω) : Prop :=
  ∀ k, Option.Rel R (m.get k) (m'.get k)

variable {R : υ → ω → Prop} {m : Map κ υ} {m' : Map κ ω}

theorem Matches.left (h : m.Matches R m') {k : κ} {v : υ} (hk : m.get k = some v) :
    ∃ v', m'.get k = some v' ∧ R v v' := by
  rcases rel_cases (h k) with ⟨hm, -⟩ | ⟨w, v', hm, hm', hR⟩
  · rw [hk] at hm
    cases hm
  · rw [hk] at hm
    cases hm
    exact ⟨v', hm', hR⟩

theorem Matches.containsKey (h : m.Matches R m') (k : κ) :
    m.containsKey k = m'.containsKey k := by
  unfold Map.containsKey
  rcases rel_cases (h k) with ⟨hm, hm'⟩ | ⟨v, v', hm, hm', -⟩ <;> rw [hm, hm'] <;> rfl

theorem Matches.imp {S : υ → ω → Prop} (h : m.Matches R m') (hRS : ∀ v v', R v v' → S v v') :
    m.Matches S m' := fun k => rel_imp (h k) hRS

section
variable [Std.LawfulEqOrd κ]

theorem Matches.insert [DecidableEq κ] (h : m.Matches R m') (k : κ) {v : υ} {v' : ω}
    (hv : R v v') : (m.insert k v).Matches R (m'.insert k v') := by
  intro a
  rw [get_insert, get_insert]
  split
  · exact .some hv
  · exact h a

theorem Matches.retain (h : m.Matches R m') {p : κ → υ → Bool} {q : κ → ω → Bool}
    (hpq : ∀ k v v', R v v' → p k v = q k v') : (m.retain p).Matches R (m'.retain q) := by
  intro k
  rw [get_retain, get_retain]
  rcases rel_cases (h k) with ⟨hm, hm'⟩ | ⟨v, v', hm, hm', hR⟩
  · rw [hm, hm']
    exact .none
  · rw [hm, hm', Option.filter_some, Option.filter_some, hpq k v v' hR]
    split
    · exact .some hR
    · exact .none

/-- The keys are listed in one order. -/
theorem Matches.keys (h : m.Matches R m') : m.keys = m'.keys := by
  have hkeys : ∀ {υ : Type} (m : Map κ υ),
      m.keys = (m.inner.map fun _ _ => ()).toList.map Prod.fst := by
    intro υ m
    unfold Map.keys entries
    rw [Std.ExtTreeMap.toList_map, List.map_map]
    rfl
  have hunit : (m.inner.map fun _ _ => ()) = m'.inner.map fun _ _ => () := by
    refine Std.ExtTreeMap.ext_getElem? fun k => ?_
    have hk : Option.Rel R (m.inner[k]?) (m'.inner[k]?) := h k
    rw [Std.ExtTreeMap.getElem?_map, Std.ExtTreeMap.getElem?_map]
    rcases rel_cases hk with ⟨hm, hm'⟩ | ⟨v, v', hm, hm', -⟩ <;> rw [hm, hm'] <;> rfl
  rw [hkeys m, hunit, ← hkeys m']

theorem Matches.entries (h : m.Matches R m') :
    List.Forall₂ (fun e e' => e.1 = e'.1 ∧ R e.2 e'.2) m.entries m'.entries := by
  refine forall₂_of_keys h.keys ?_
  intro e he e' he' hk
  obtain ⟨k, v⟩ := e
  obtain ⟨k', v'⟩ := e'
  dsimp only at hk ⊢
  subst hk
  obtain ⟨v'', hget, hR⟩ := h.left (mem_entries.mp he)
  rw [mem_entries.mp he'] at hget
  cases hget
  exact ⟨rfl, hR⟩

theorem Matches.values (h : m.Matches R m') : List.Forall₂ R m.values m'.values := by
  unfold Map.values
  rw [List.forall₂_map_left_iff, List.forall₂_map_right_iff]
  exact h.entries.imp fun _ _ => And.right

end

end Map

end Core
