import IamRust.L0Core.JsonRead
import Mathlib.Algebra.Ring.Int.Defs

/-!
# Reading JSON values

How a derived `serde` reader takes a value apart: the fields of an object in any
order, unknown ones skipped, a field given twice refused. A missing optional field
reads as one that is `null`.

* `depth`, `fits`: a value is readable if it nests no deeper than the limit and its
  numbers fit (`readable_iff`).
* `required_bind`, `optional_bind`, `defaulted_bind`: a reader goes on with what it
  finds in a field.
* `nullable_of`, `unsigned_nat`, `listOf_map`: what was written is read back.
-/
namespace Core.Json

/-! ## Depth -/

mutual

/-- How deep arrays and objects nest. -/
def depth : Json → Nat
  | .null | .bool _ | .number _ | .string _ => 0
  | .array items => depthItems items + 1
  | .object fields => depthFields fields + 1

def depthItems : List Json → Nat
  | [] => 0
  | j :: items => max (depth j) (depthItems items)

def depthFields : List (String × Json) → Nat
  | [] => 0
  | (_, j) :: fields => max (depth j) (depthFields fields)

end

mutual

/-- The numbers in it fit 64 bits. -/
def fits : Json → Bool
  | .null | .bool _ | .string _ => true
  | .number n => fits64 n
  | .array items => fitsItems items
  | .object fields => fitsFields fields

def fitsItems : List Json → Bool
  | [] => true
  | j :: items => fits j && fitsItems items

def fitsFields : List (String × Json) → Bool
  | [] => true
  | (_, j) :: fields => fits j && fitsFields fields

end

mutual

theorem readable_iff : ∀ (j : Json) (limit : Nat),
    readable limit j = true ↔ fits j = true ∧ depth j ≤ limit
  | .null, _ | .bool _, _ | .string _, _ | .number _, _ => by simp [readable, fits, depth]
  | .array items, limit => by
    rw [readable, fits, depth, Bool.and_eq_true, decide_eq_true_eq,
      readableItems_iff items (limit - 1)]
    constructor
    · rintro ⟨hpos, hfits, hdepth⟩
      exact ⟨hfits, by omega⟩
    · rintro ⟨hfits, hdepth⟩
      exact ⟨by omega, hfits, by omega⟩
  | .object fields, limit => by
    rw [readable, fits, depth, Bool.and_eq_true, decide_eq_true_eq,
      readableFields_iff fields (limit - 1)]
    constructor
    · rintro ⟨hpos, hfits, hdepth⟩
      exact ⟨hfits, by omega⟩
    · rintro ⟨hfits, hdepth⟩
      exact ⟨by omega, hfits, by omega⟩

theorem readableItems_iff : ∀ (items : List Json) (limit : Nat),
    readableItems limit items = true ↔ fitsItems items = true ∧ depthItems items ≤ limit
  | [], _ => by simp [readableItems, fitsItems, depthItems]
  | j :: items, limit => by
    rw [readableItems, fitsItems, depthItems, Bool.and_eq_true, Bool.and_eq_true, Nat.max_le,
      readable_iff j limit, readableItems_iff items limit]
    exact and_and_and_comm

theorem readableFields_iff : ∀ (fields : List (String × Json)) (limit : Nat),
    readableFields limit fields = true ↔ fitsFields fields = true ∧ depthFields fields ≤ limit
  | [], _ => by simp [readableFields, fitsFields, depthFields]
  | (_, j) :: fields, limit => by
    rw [readableFields, fitsFields, depthFields, Bool.and_eq_true, Bool.and_eq_true, Nat.max_le,
      readable_iff j limit, readableFields_iff fields limit]
    exact and_and_and_comm

end

theorem depthItems_le {n : Nat} {items : List Json} (h : ∀ j ∈ items, depth j ≤ n) :
    depthItems items ≤ n := by
  induction items with
  | nil => exact Nat.zero_le n
  | cons j items ih =>
    exact Nat.max_le.mpr ⟨h j List.mem_cons_self, ih fun j hj => h j (List.mem_cons_of_mem _ hj)⟩

theorem depthFields_le {n : Nat} {fields : List (String × Json)}
    (h : ∀ f ∈ fields, depth f.2 ≤ n) : depthFields fields ≤ n := by
  induction fields with
  | nil => exact Nat.zero_le n
  | cons f fields ih =>
    exact Nat.max_le.mpr ⟨h f List.mem_cons_self, ih fun f hf => h f (List.mem_cons_of_mem _ hf)⟩

/-- A list of values that nest so deep. -/
theorem depth_map_le {α : Type} {f : α → Json} {n : Nat} {l : List α}
    (h : ∀ a ∈ l, depth (f a) ≤ n) :
    depth (.array (l.map f)) ≤ n + 1 := by
  refine Nat.succ_le_succ (depthItems_le fun j hj => ?_)
  obtain ⟨a, ha, rfl⟩ := List.mem_map.mp hj
  exact h a ha

/-! ### The limit -/

/-- What the reader takes with one limit it takes with a higher one, and it nests within the
limit. -/
structure Limited (fuel : Nat) : Prop where
  value : ∀ {limit limit' s j rest}, limit ≤ limit' → readValue fuel limit s = some (j, rest) →
    depth j ≤ limit ∧ readValue fuel limit' s = some (j, rest)
  items : ∀ {limit limit' s l rest}, limit ≤ limit' → readItems fuel limit s = some (l, rest) →
    depthItems l ≤ limit ∧ readItems fuel limit' s = some (l, rest)
  fields : ∀ {limit limit' s l rest}, limit ≤ limit' → readFields fuel limit s = some (l, rest) →
    depthFields l ≤ limit ∧ readFields fuel limit' s = some (l, rest)

theorem readLiteral_some {text s rest : List Char} {j j' : Json}
    (h : readLiteral text j s = some (j', rest)) : j' = j := by
  unfold readLiteral at h
  split at h <;> cases h
  rfl

/-- An array or an object: `parts` is read with one less, `parts'` of the higher limit. -/
theorem limited_nested {α : Type} {limit limit' : Nat} {p : Prop} [Decidable p]
    {parts parts' : Option (α × List Char)} {wrap : α → Json} {empty : Json} {s rest : List Char}
    {j : Json} (hle : limit ≤ limit')
    (h : (if limit = 0 then none else if p then some (empty, s)
      else parts.map fun r => (wrap r.1, r.2)) = some (j, rest))
    (hempty : depth empty ≤ 1)
    (hparts : ∀ r, parts = some r → depth (wrap r.1) ≤ limit - 1 + 1 ∧ parts' = some r) :
    depth j ≤ limit ∧ (if limit' = 0 then none else if p then some (empty, s)
      else parts'.map fun r => (wrap r.1, r.2)) = some (j, rest) := by
  split at h
  · cases h
  rename_i hzero
  rw [if_neg (show limit' ≠ 0 by omega)]
  split at h
  · cases h
    exact ⟨by omega, if_pos ‹_›⟩
  · obtain ⟨r, hr, heq⟩ := Option.map_eq_some_iff.mp h
    cases heq
    obtain ⟨hdepth, hr'⟩ := hparts r hr
    refine ⟨by omega, ?_⟩
    rw [if_neg ‹_›, hr']
    rfl

theorem Limited.value_succ {fuel limit limit' : Nat} {s rest : List Char} {j : Json}
    (ih : Limited fuel) (hle : limit ≤ limit') (h : readValue (fuel + 1) limit s = some (j, rest)) :
    depth j ≤ limit ∧ readValue (fuel + 1) limit' s = some (j, rest) := by
  rw [readValue] at h ⊢
  split at h
  · cases h
  rename_i c s' _
  by_cases hquote : c = '\x22'
  · rw [if_pos hquote] at h ⊢
    obtain ⟨r, -, heq⟩ := Option.map_eq_some_iff.mp h
    cases heq
    exact ⟨by simp [depth], h⟩
  rw [if_neg hquote] at h ⊢
  split at h
  · rw [if_pos ‹_›]
    refine limited_nested hle h (Nat.le_refl 1) fun r hr => ?_
    obtain ⟨hdepth, hr'⟩ := ih.items (Nat.sub_le_sub_right hle 1) hr
    exact ⟨Nat.succ_le_succ hdepth, hr'⟩
  rw [if_neg ‹_›]
  split at h
  · rw [if_pos ‹_›]
    refine limited_nested hle h (Nat.le_refl 1) fun r hr => ?_
    obtain ⟨hdepth, hr'⟩ := ih.fields (Nat.sub_le_sub_right hle 1) hr
    exact ⟨Nat.succ_le_succ hdepth, hr'⟩
  rw [if_neg ‹_›]
  refine ⟨?_, h⟩
  split at h
  · rw [readLiteral_some h]
    exact Nat.zero_le _
  split at h
  · rw [readLiteral_some h]
    exact Nat.zero_le _
  split at h
  · rw [readLiteral_some h]
    exact Nat.zero_le _
  obtain ⟨r, -, heq⟩ := Option.map_eq_some_iff.mp h
  cases heq
  simp [depth]

theorem Limited.items_succ {fuel limit limit' : Nat} {s rest : List Char} {l : List Json}
    (ih : Limited fuel) (hle : limit ≤ limit') (h : readItems (fuel + 1) limit s = some (l, rest)) :
    depthItems l ≤ limit ∧ readItems (fuel + 1) limit' s = some (l, rest) := by
  rw [readItems] at h ⊢
  split at h
  · cases h
  rename_i j s' hvalue
  obtain ⟨hdepth, hvalue'⟩ := ih.value hle hvalue
  rw [hvalue']
  dsimp only
  split at h
  · cases h
  split at h
  · obtain ⟨r, hr, heq⟩ := Option.map_eq_some_iff.mp h
    cases heq
    obtain ⟨hrest, hr'⟩ := ih.items hle hr
    refine ⟨Nat.max_le.mpr ⟨hdepth, hrest⟩, ?_⟩
    rw [if_pos ‹_›, hr']
    rfl
  · rw [if_neg ‹_›]
    split at h <;> cases h
    exact ⟨Nat.max_le.mpr ⟨hdepth, Nat.zero_le _⟩, if_pos ‹_›⟩

theorem Limited.fields_succ {fuel limit limit' : Nat} {s rest : List Char}
    {l : List (String × Json)} (ih : Limited fuel) (hle : limit ≤ limit')
    (h : readFields (fuel + 1) limit s = some (l, rest)) :
    depthFields l ≤ limit ∧ readFields (fuel + 1) limit' s = some (l, rest) := by
  rw [readFields] at h ⊢
  split at h
  case isFalse => cases h
  rw [if_pos ‹_›]
  split at h
  · cases h
  split at h
  case isFalse => cases h
  rw [if_pos ‹_›]
  split at h
  · cases h
  rename_i j s' hvalue
  obtain ⟨hdepth, hvalue'⟩ := ih.value hle hvalue
  rw [hvalue']
  dsimp only
  split at h
  · cases h
  split at h
  · obtain ⟨r, hr, heq⟩ := Option.map_eq_some_iff.mp h
    cases heq
    obtain ⟨hrest, hr'⟩ := ih.fields hle hr
    refine ⟨Nat.max_le.mpr ⟨hdepth, hrest⟩, ?_⟩
    rw [if_pos ‹_›, hr']
    rfl
  · rw [if_neg ‹_›]
    split at h <;> cases h
    exact ⟨Nat.max_le.mpr ⟨hdepth, Nat.zero_le _⟩, if_pos ‹_›⟩

theorem limited (fuel : Nat) : Limited fuel := by
  induction fuel with
  | zero => exact ⟨fun _ h => (by cases h), fun _ h => (by cases h), fun _ h => (by cases h)⟩
  | succ fuel ih =>
    exact ⟨fun hle h => ih.value_succ hle h, fun hle h => ih.items_succ hle h,
      fun hle h => ih.fields_succ hle h⟩

/-- **The limit.** A text that a value is written as is read back if the value nests within the
limit, and refused otherwise. -/
theorem read_write_eq {j : Json} (hfits : fits j = true) (limit : Nat) :
    read limit (write j) = if depth j ≤ limit then some j else none := by
  split
  · exact read_write ((readable_iff j limit).mpr ⟨hfits, ‹_›⟩)
  · rename_i hdeep
    have hread : read (depth j) (write j) = some j :=
      read_write ((readable_iff j (depth j)).mpr ⟨hfits, Nat.le_refl _⟩)
    unfold read at hread ⊢
    split
    · rfl
    rename_i j' s hvalue
    obtain ⟨hdepth, hvalue'⟩ := (limited _).value (Nat.le_of_not_le hdeep) hvalue
    rw [hvalue'] at hread
    dsimp only at hread
    split at hread <;> cases hread
    exact absurd hdepth hdeep

/-! ## Parts -/

/-- The field, if it is there; twice the same name is an error. -/
def pick (fields : List (String × Json)) (name : String) : Option (Option Json) :=
  match fields.filter (·.1 == name) with
  | [] => some none
  | [entry] => some (some entry.2)
  | _ => none

section
variable {α : Type}

def required (fields : List (String × Json)) (name : String) (decode : Json → Option α) :
    Option α :=
  match pick fields name with
  | some (some j) => decode j
  | _ => none

/-- `null` is the missing value. -/
def nullable (decode : Json → Option α) : Json → Option (Option α)
  | .null => some none
  | j => (decode j).map some

def optional (fields : List (String × Json)) (name : String) (decode : Json → Option α) :
    Option (Option α) :=
  match pick fields name with
  | none => none
  | some none => some none
  | some (some j) => nullable decode j

def defaulted (fields : List (String × Json)) (name : String) (default : α)
    (decode : Json → Option α) : Option α :=
  match pick fields name with
  | none => none
  | some none => some default
  | some (some j) => decode j

def text? : Json → Option String
  | .string s => some s
  | _ => none

def flag? : Json → Option Bool
  | .bool b => some b
  | _ => none

/-- A number of so many bits, without a sign. -/
def unsigned? (bits : Nat) : Json → Option Nat
  | .number n => if 0 ≤ n ∧ n < 2 ^ bits then some n.toNat else none
  | _ => none

def items? : Json → Option (List Json)
  | .array items => some items
  | _ => none

def listOf (decode : Json → Option α) (j : Json) : Option (List α) := do
  (← items? j).mapM decode

/-! ## Reading an object -/

/-- No field is given twice. -/
def Distinct : Json → Prop
  | .object fields => (fields.map (·.1)).Nodup
  | _ => False

theorem pick_at {fields : List (String × Json)} (hkeys : Distinct (.object fields)) (i : Nat)
    {name : String} {j : Json} (h : fields[i]? = some (name, j)) :
    pick fields name = some (some j) := by
  have hmem : (name, j) ∈ fields := List.mem_of_getElem? h
  have hone : fields.filter (·.1 == name) = [(name, j)] := by
    clear h
    induction fields with
    | nil => cases hmem
    | cons f fields ih =>
      obtain ⟨hnew, hkeys⟩ := List.nodup_cons.mp hkeys
      rw [List.filter_cons]
      rcases List.mem_cons.mp hmem with rfl | hmem
      · rw [if_pos (beq_self_eq_true _), List.filter_eq_nil_iff.mpr]
        exact fun f hf heq => hnew (List.mem_map.mpr ⟨f, hf, eq_of_beq heq⟩)
      · have hne : (f.1 == name) ≠ true := fun heq =>
          hnew (List.mem_map.mpr ⟨(name, j), hmem, (eq_of_beq heq).symm⟩)
        rw [if_neg hne, ih hkeys hmem]
  rw [pick, hone]

section
variable {β : Type} {fields : List (String × Json)} (hkeys : Distinct (.object fields)) (i : Nat)
  {name : String} {j : Json} (h : fields[i]? = some (name, j)) {decode : Json → Option α} {a : α}
  {k : α → Option β} {b : β}

include hkeys h

theorem required_bind (hdecode : decode j = some a) (hk : k a = some b) :
    (required fields name decode).bind k = some b := by
  rw [required, pick_at hkeys i h]
  exact (congrArg (Option.bind · k) hdecode).trans hk

theorem optional_bind {k : Option α → Option β} {o : Option α}
    (hdecode : nullable decode j = some o) (hk : k o = some b) :
    (optional fields name decode).bind k = some b := by
  rw [optional, pick_at hkeys i h]
  exact (congrArg (Option.bind · k) hdecode).trans hk

theorem defaulted_bind {default : α} (hdecode : decode j = some a) (hk : k a = some b) :
    (defaulted fields name default decode).bind k = some b := by
  rw [defaulted, pick_at hkeys i h]
  exact (congrArg (Option.bind · k) hdecode).trans hk

theorem required_map {f : α → β} (hdecode : decode j = some a) :
    (required fields name decode).map f = some (f a) := by
  rw [required, pick_at hkeys i h]
  exact congrArg (Option.map f) hdecode

end

theorem object_bind {β : Type} {fields : List (String × Json)}
    {k : List (String × Json) → Option β} {b : β} (hk : k fields = some b) :
    (fields? (.object fields)).bind k = some b := hk

theorem nullable_of {decode : Json → Option α} {j : Json} {a : α} (hnull : j ≠ .null)
    (h : decode j = some a) : nullable decode j = some (some a) := by
  cases j with
  | null => exact absurd rfl hnull
  | _ => exact congrArg (Option.map some) h

theorem unsigned_nat {bits n : Nat} (h : n < 2 ^ bits) : unsigned? bits (.number n) = some n := by
  rw [unsigned?, if_pos ⟨Int.natCast_nonneg n, by exact_mod_cast h⟩]
  rfl

theorem listOf_cons {decode : Json → Option α} {j : Json} {items : List Json} {a : α} {l : List α}
    (ha : decode j = some a) (hl : listOf decode (.array items) = some l) :
    listOf decode (.array (j :: items)) = some (a :: l) := by
  change items.mapM decode = some l at hl
  change (j :: items).mapM decode = some (a :: l)
  rw [List.mapM_cons, ha, hl]
  rfl

theorem listOf_map {decode : Json → Option α} {f : α → Json} {l : List α}
    (h : ∀ a ∈ l, decode (f a) = some a) : listOf decode (.array (l.map f)) = some l := by
  induction l with
  | nil => rfl
  | cons a l ih =>
    exact listOf_cons (h a List.mem_cons_self) (ih fun b hb => h b (List.mem_cons_of_mem _ hb))

end

end Core.Json
