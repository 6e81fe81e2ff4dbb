import Mathlib.Data.Finset.Card
import Mathlib.Data.List.Nodup
import Std.Data.ExtTreeMap.Lemmas

/-!
# Finite maps

Key-value maps with the operations of a mutable hash map or ordered map
(`insert`, `remove`, `get_mut`, `entry().or_insert`, `retain`, iteration over
the values), over `Std.ExtTreeMap`. Two maps with the same `get` are equal
(`Map.ext`), so a map carries no history; iteration is in key order.
-/
namespace Core

/-- A finite map. -/
structure Map (κ υ : Type) [Ord κ] where
  inner : Std.ExtTreeMap κ υ compare

/-- Pairs as keys, in lexicographic order. -/
instance instOrdPair {α β : Type} [Ord α] [Ord β] : Ord (α × β) := lexOrd

instance instTransOrdPair {α β : Type} [Ord α] [Ord β] [Std.TransOrd α] [Std.TransOrd β] :
    Std.TransOrd (α × β) :=
  inferInstanceAs <| Std.TransCmp (compareLex _ _)

instance instLawfulEqOrdPair {α β : Type} [Ord α] [Ord β] [Std.LawfulEqOrd α] [Std.LawfulEqOrd β] :
    Std.LawfulEqOrd (α × β) where
  eq_of_compare {a b} h := by
    simp only [compare, compareLex_eq_eq, compareOn] at h
    exact Prod.ext (Std.LawfulEqOrd.eq_of_compare h.1) (Std.LawfulEqOrd.eq_of_compare h.2)

namespace Map

variable {κ υ ω : Type} [Ord κ] [Std.TransOrd κ]

def empty : Map κ υ := ⟨∅⟩

def get (m : Map κ υ) (k : κ) : Option υ := m.inner[k]?

def containsKey (m : Map κ υ) (k : κ) : Bool := (m.get k).isSome

def insert (m : Map κ υ) (k : κ) (v : υ) : Map κ υ := ⟨m.inner.insert k v⟩

def remove (m : Map κ υ) (k : κ) : Map κ υ := ⟨m.inner.erase k⟩

/-- `if let Some(v) = m.get_mut(k) { *v = f(*v) }`. -/
def modify (m : Map κ υ) (k : κ) (f : υ → υ) : Map κ υ := ⟨m.inner.modify k f⟩

/-- `let v = m.entry(k).or_insert(d); *v = f(*v)`. -/
def upsert (m : Map κ υ) (k : κ) (d : υ) (f : υ → υ) : Map κ υ := m.insert k (f ((m.get k).getD d))

/-- `m.entry(k).or_insert(d)`. -/
def orInsert (m : Map κ υ) (k : κ) (d : υ) : Map κ υ := m.upsert k d id

def retain (m : Map κ υ) (p : κ → υ → Bool) : Map κ υ := ⟨m.inner.filter p⟩

/-- Every value rewritten in place (`values_mut`). -/
def mapValues (m : Map κ υ) (f : υ → υ) : Map κ υ := ⟨m.inner.map fun _ => f⟩

def entries (m : Map κ υ) : List (κ × υ) := m.inner.toList

def keys (m : Map κ υ) : List κ := m.entries.map Prod.fst

def values (m : Map κ υ) : List υ := m.entries.map Prod.snd

def len (m : Map κ υ) : Nat := m.inner.size

@[simp] theorem get_empty (k : κ) : (empty : Map κ υ).get k = none := by
  simp [empty, get]

theorem forall_empty {P : κ → υ → Prop} (k : κ) (v : υ) (h : (empty : Map κ υ).get k = some v) :
    P k v := by
  rw [get_empty] at h
  cases h

@[simp] theorem containsKey_iff {m : Map κ υ} {k : κ} :
    m.containsKey k = true ↔ ∃ v, m.get k = some v := by
  simp [containsKey, Option.isSome_iff_exists]

theorem containsKey_eq_false {m : Map κ υ} {k : κ} : m.containsKey k = false ↔ m.get k = none := by
  simp [containsKey]

theorem len_singleton (k : κ) (v : υ) : ((empty : Map κ υ).insert k v).len = 1 := by
  simp [len, insert, empty, Std.ExtTreeMap.size_insert]

theorem len_insert {m : Map κ υ} {k : κ} (h : m.get k = none) (v : υ) :
    (m.insert k v).len = m.len + 1 := by
  have hk : k ∉ m.inner := by
    rw [Std.ExtTreeMap.mem_iff_isSome_getElem?]
    exact fun hs => by simp [show m.inner[k]? = none from h] at hs
  simp [len, insert, Std.ExtTreeMap.size_insert, hk]

theorem nodup_keys {m : Map κ υ} : m.keys.Nodup := by
  unfold keys entries
  rw [Std.ExtTreeMap.map_fst_toList_eq_keys]
  exact Std.ExtTreeMap.nodup_keys

theorem len_eq_card [DecidableEq κ] {m : Map κ υ} : m.len = m.keys.toFinset.card := by
  rw [List.toFinset_card_of_nodup nodup_keys]
  unfold keys entries len
  rw [List.length_map, Std.ExtTreeMap.length_toList]

section
variable [Std.LawfulEqOrd κ]

theorem ext {m m' : Map κ υ} (h : ∀ k, m.get k = m'.get k) : m = m' := by
  obtain ⟨i⟩ := m
  obtain ⟨i'⟩ := m'
  exact congrArg Map.mk (Std.ExtTreeMap.ext_getElem? fun k => h k)

theorem get_insert [DecidableEq κ] (m : Map κ υ) (k a : κ) (v : υ) :
    (m.insert k v).get a = if a = k then some v else m.get a := by
  simp only [get, insert, Std.ExtTreeMap.getElem?_insert, Std.LawfulEqCmp.compare_eq_iff_eq,
    eq_comm (a := k)]

@[simp] theorem get_insert_self (m : Map κ υ) (k : κ) (v : υ) : (m.insert k v).get k = some v := by
  simp [get, insert]

theorem get_insert_ne {m : Map κ υ} {k a : κ} {v : υ} (h : a ≠ k) :
    (m.insert k v).get a = m.get a := by
  classical rw [get_insert, if_neg h]

/-- A row of the map with one more. -/
theorem forall_insert [DecidableEq κ] {P : υ → Prop} {m : Map κ υ}
    (h : ∀ k v, m.get k = some v → P v) {k₀ : κ} {v₀ : υ} (h₀ : P v₀) :
    ∀ k v, (m.insert k₀ v₀).get k = some v → P v := by
  intro k v hv
  rw [get_insert] at hv
  split at hv
  · cases hv
    exact h₀
  · exact h k v hv

theorem get_remove [DecidableEq κ] (m : Map κ υ) (k a : κ) :
    (m.remove k).get a = if a = k then none else m.get a := by
  simp only [get, remove, Std.ExtTreeMap.getElem?_erase, Std.LawfulEqCmp.compare_eq_iff_eq,
    eq_comm (a := k)]

theorem get_remove_self (m : Map κ υ) (k : κ) : (m.remove k).get k = none := by
  classical rw [get_remove, if_pos rfl]

theorem get_remove_ne {m : Map κ υ} {k a : κ} (h : a ≠ k) : (m.remove k).get a = m.get a := by
  classical rw [get_remove, if_neg h]

theorem get_of_remove {m : Map κ υ} {k a : κ} {v : υ} (h : (m.remove k).get a = some v) :
    m.get a = some v := by
  classical
  rw [get_remove] at h
  split at h
  · cases h
  · exact h

theorem get_remove_none {m : Map κ υ} {k a : κ} (h : m.get a = none) :
    (m.remove k).get a = none := by
  classical
  rw [get_remove, h, ite_self]

theorem get_modify [DecidableEq κ] (m : Map κ υ) (k a : κ) (f : υ → υ) :
    (m.modify k f).get a = if a = k then (m.get a).map f else m.get a := by
  simp only [get, modify, Std.ExtTreeMap.getElem?_modify, Std.LawfulEqCmp.compare_eq_iff_eq,
    eq_comm (a := k)]
  split
  · subst_vars; rfl
  · rfl

theorem containsKey_insert [DecidableEq κ] {m : Map κ υ} {k a : κ} {v : υ} :
    (m.insert k v).containsKey a = true ↔ a = k ∨ m.containsKey a = true := by
  simp only [containsKey, get_insert]
  split <;> simp [*]

theorem containsKey_remove [DecidableEq κ] {m : Map κ υ} {k a : κ} :
    (m.remove k).containsKey a = true ↔ a ≠ k ∧ m.containsKey a = true := by
  simp only [containsKey, get_remove]
  split <;> simp [*]

theorem containsKey_modify [DecidableEq κ] {m : Map κ υ} {k a : κ} {f : υ → υ} :
    (m.modify k f).containsKey a = m.containsKey a := by
  simp only [containsKey, get_modify]
  split <;> simp

theorem get_upsert [DecidableEq κ] (m : Map κ υ) (k a : κ) (d : υ) (f : υ → υ) :
    (m.upsert k d f).get a = if a = k then some (f ((m.get k).getD d)) else m.get a :=
  get_insert m k a _

theorem get_orInsert [DecidableEq κ] (m : Map κ υ) (k a : κ) (d : υ) :
    (m.orInsert k d).get a = if a = k then some ((m.get k).getD d) else m.get a :=
  get_upsert m k a d id

/-- Every key of a list inserted, one after the other. -/
theorem get_foldl_insert [DecidableEq κ] (f : κ → υ) (ks : List κ) (m : Map κ υ) (a : κ) :
    (ks.foldl (fun m k => m.insert k (f k)) m).get a = if a ∈ ks then some (f a) else m.get a := by
  induction ks generalizing m with
  | nil => simp
  | cons k ks ih =>
    rw [List.foldl_cons, ih, get_insert]
    by_cases hk : a = k <;> by_cases ha : a ∈ ks <;> simp [hk, ha]

/-- Every key of a list inserted where it is missing. -/
theorem get_foldl_orInsert [DecidableEq κ] (f : κ → υ) (ks : List κ) (m : Map κ υ) (a : κ) :
    (ks.foldl (fun m k => m.orInsert k (f k)) m).get a =
      (m.get a).or (if a ∈ ks then some (f a) else none) := by
  induction ks generalizing m with
  | nil => simp
  | cons k ks ih =>
    rw [List.foldl_cons, ih, get_orInsert]
    by_cases hk : a = k
    · subst hk
      cases hm : m.get a <;> simp
    · simp [hk]

/-- The entries of a list, written one after the other. -/
def written (l : List (κ × υ)) : Map κ υ := l.foldl (fun m e => m.insert e.1 e.2) empty

/-- Behind the new entries a key has the value they give it, if any does, and else the old one. -/
theorem get_written_append {l new : List (κ × υ)} {k : κ} {v : υ}
    (hnew : ∀ e ∈ new, e.1 = k → e.2 = v)
    (h : (∃ e ∈ new, e.1 = k) ∨ (written l).get k = some v) :
    (written (l ++ new)).get k = some v := by
  unfold written at h ⊢
  rw [List.foldl_append]
  generalize l.foldl (fun m e => m.insert e.1 e.2) (empty : Map κ υ) = m at h ⊢
  induction new generalizing m with
  | nil =>
    rcases h with ⟨e, he, -⟩ | h
    · cases he
    · exact h
  | cons e new ih =>
    refine ih (fun e' he' => hnew e' (List.mem_cons_of_mem _ he')) (m.insert e.1 e.2) ?_
    by_cases hk : e.1 = k
    · rw [← hnew e List.mem_cons_self hk, ← hk]
      exact .inr (get_insert_self ..)
    · rw [get_insert_ne (Ne.symm hk)]
      refine h.imp_left ?_
      rintro ⟨e', he', hk'⟩
      rcases List.mem_cons.mp he' with rfl | he'
      · exact absurd hk' hk
      · exact ⟨e', he', hk'⟩

@[simp] theorem get_retain (m : Map κ υ) (p : κ → υ → Bool) (a : κ) :
    (m.retain p).get a = (m.get a).filter (p a) := by
  simp [get, retain]

/-- A condition on the key alone. -/
theorem get_retain_key (m : Map κ υ) (p : κ → Bool) (a : κ) :
    (m.retain fun k _ => p k).get a = if p a then m.get a else none := by
  rw [get_retain]
  cases p a <;> cases m.get a <;> rfl

theorem get_of_retain {m : Map κ υ} {p : κ → υ → Bool} {a : κ} {v : υ}
    (h : (m.retain p).get a = some v) : m.get a = some v := by
  rw [get_retain, Option.filter_eq_some_iff] at h
  exact h.1

@[simp] theorem get_mapValues (m : Map κ υ) (f : υ → υ) (a : κ) :
    (m.mapValues f).get a = (m.get a).map f := by
  simp [get, mapValues]

@[simp] theorem mem_entries {m : Map κ υ} {k : κ} {v : υ} :
    (k, v) ∈ m.entries ↔ m.get k = some v := by
  simp [entries, get, Std.ExtTreeMap.mem_toList_iff_getElem?_eq_some]

@[simp] theorem mem_values {m : Map κ υ} {v : υ} : v ∈ m.values ↔ ∃ k, m.get k = some v := by
  simp [values]

@[simp] theorem mem_keys {m : Map κ υ} {k : κ} : k ∈ m.keys ↔ ∃ v, m.get k = some v := by
  simp [keys]

end

end Map

end Core
