import Mathlib.Data.List.Nodup
import Mathlib.Data.List.Pairwise

/-!
# Paging through an increasing log

A reader keeps a cursor and asks for the entries above it, at most `n` at a
time. On a log whose keys increase strictly, the cursor moved to the last entry
of a page leaves exactly the entries after the page (`above_advance_take`): no
entry is skipped and none is seen twice, wherever the pages end.

A reader of the history goes backwards: it asks for the last `n` entries below
the cursor, moves it to the first of them, and stops at a page that is not full
(`backward_complete`).
-/
namespace Core.Paging

variable {α : Type} (key : α → Nat)

/-- The keys increase strictly. -/
def Increasing (l : List α) : Prop := l.Pairwise fun a b => key a < key b

/-- The entries above the cursor. -/
def above (c : Nat) (l : List α) : List α := l.filter fun a => decide (c < key a)

/-- The cursor after handing over `l`, one entry after the other. -/
def advance (c : Nat) (l : List α) : Nat := l.foldl (fun c a => max c (key a)) c

/-- The key of the last entry of a page, the old cursor if it is empty. -/
def lastKey (c : Nat) (l : List α) : Nat := (l.getLast?.map key).getD c

variable {key}

@[simp] theorem mem_above {c : Nat} {l : List α} {a : α} : a ∈ above key c l ↔ a ∈ l ∧ c < key a := by
  simp [above]

theorem above_append (c : Nat) (l l' : List α) :
    above key c (l ++ l') = above key c l ++ above key c l' := List.filter_append ..

theorem above_above {c c' : Nat} (h : c ≤ c') (l : List α) :
    above key c' (above key c l) = above key c' l := by
  simp only [above, List.filter_filter]
  congr 1
  funext a
  have : c' < key a → c < key a := fun h' => Nat.lt_of_le_of_lt h h'
  by_cases hc : c' < key a <;> simp [hc, this]

theorem above_eq_self {c : Nat} {l : List α} (h : ∀ a ∈ l, c < key a) : above key c l = l := by
  simpa [above] using h

theorem above_eq_nil {c : Nat} {l : List α} (h : ∀ a ∈ l, key a ≤ c) : above key c l = [] := by
  simpa [above] using h

theorem Increasing.above {l : List α} (h : Increasing key l) (c : Nat) :
    Increasing key (above key c l) := List.Pairwise.filter _ h

theorem Increasing.nodup {l : List α} (h : Increasing key l) : l.Nodup := by
  refine List.Pairwise.imp ?_ h
  rintro a b hlt rfl
  exact Nat.lt_irrefl _ hlt

theorem Increasing.append {l l' : List α} :
    Increasing key (l ++ l') ↔
      Increasing key l ∧ Increasing key l' ∧ ∀ a ∈ l, ∀ b ∈ l', key a < key b :=
  List.pairwise_append

/-- Entries above the cursor, in order, move the cursor to the last of them. -/
theorem advance_eq_lastKey {l : List α} (h : Increasing key l) {c : Nat} (hc : ∀ a ∈ l, c < key a) :
    advance key c l = lastKey key c l := by
  induction l generalizing c with
  | nil => rfl
  | cons a l ih =>
    have ha := hc a List.mem_cons_self
    have hl : ∀ b ∈ l, key a < key b := (List.pairwise_cons.mp h).1
    have hmax : max c (key a) = key a := Nat.max_eq_right (Nat.le_of_lt ha)
    calc advance key c (a :: l) = advance key (key a) l := by simp [advance, hmax]
      _ = lastKey key (key a) l := ih (List.pairwise_cons.mp h).2 hl
      _ = lastKey key c (a :: l) := by
        cases l with
        | nil => rfl
        | cons b l =>
          obtain ⟨x, hx⟩ : ∃ x, (b :: l).getLast? = some x := ⟨_, List.getLast?_cons⟩
          simp [lastKey, List.getLast?_cons_cons, hx]

theorem le_advance (c : Nat) (l : List α) : c ≤ advance key c l := by
  induction l generalizing c with
  | nil => exact Nat.le_refl _
  | cons a l ih => exact Nat.le_trans (Nat.le_max_left c (key a)) (ih _)

theorem key_le_advance {c : Nat} {l : List α} {a : α} (h : a ∈ l) : key a ≤ advance key c l := by
  induction l generalizing c with
  | nil => cases h
  | cons b l ih =>
    rcases List.mem_cons.mp h with rfl | h
    · exact Nat.le_trans (Nat.le_max_right c (key a)) (le_advance _ l)
    · exact ih h

theorem advance_mem (c : Nat) (l : List α) :
    advance key c l = c ∨ ∃ a ∈ l, key a = advance key c l := by
  induction l generalizing c with
  | nil => exact .inl rfl
  | cons a l ih =>
    have hstep : advance key c (a :: l) = advance key (max c (key a)) l := rfl
    rw [hstep]
    rcases ih (max c (key a)) with h | ⟨b, hb, hk⟩
    · rw [h]
      rcases Nat.le_total c (key a) with hle | hle
      · exact .inr ⟨a, List.mem_cons_self, (Nat.max_eq_right hle).symm⟩
      · exact .inl (Nat.max_eq_left hle)
    · exact .inr ⟨b, List.mem_cons_of_mem a hb, hk⟩

/-- **A page leaves the rest.** After the first `n` entries above the cursor, the entries above
the new cursor are the others. -/
theorem above_advance_take {l : List α} (h : Increasing key l) (c n : Nat) :
    above key (advance key c ((above key c l).take n)) l = (above key c l).drop n := by
  have hsplit : (above key c l).take n ++ (above key c l).drop n = above key c l :=
    List.take_append_drop n _
  have hinc := h.above c
  rw [← hsplit, Increasing.append] at hinc
  obtain ⟨-, -, hlt⟩ := hinc
  rw [← above_above (le_advance c _) l]
  conv_lhs => rw [← hsplit]
  rw [above_append, above_eq_nil fun a ha => ?_, above_eq_self fun b hb => ?_, List.nil_append]
  · rcases advance_mem c ((above key c l).take n) with he | ⟨a, ha, he⟩
    · rw [hsplit, he]
      exact (mem_above.mp (List.mem_of_mem_drop hb)).2
    · rw [hsplit, ← he]
      exact hlt a ha b hb
  · rw [hsplit]
    exact key_le_advance ha

/-- The first entry above the cursor is the next one: none lies between. -/
theorem Increasing.eq_of_above {l t : List α} {a b : α} (h : Increasing key l) {c : Nat}
    (ha : Paging.above key c l = a :: t) (hb : b ∈ l) (hc : c < key b) (hle : key b ≤ key a) :
    b = a := by
  have hinc := h.above c
  have hmem : b ∈ Paging.above key c l := mem_above.mpr ⟨hb, hc⟩
  rw [ha] at hinc hmem
  rcases List.mem_cons.mp hmem with rfl | hmem
  · rfl
  · have := (List.pairwise_cons.mp hinc).1 b hmem
    omega

/-- Behind the first entry above the cursor are the others. -/
theorem Increasing.above_tail {l t : List α} {a : α} (h : Increasing key l) {c : Nat}
    (ha : Paging.above key c l = a :: t) : Paging.above key (key a) l = t := by
  have hinc := h.above c
  have hc : c < key a := (mem_above.mp (ha ▸ List.mem_cons_self : a ∈ Paging.above key c l)).2
  rw [ha] at hinc
  have hlt := (List.pairwise_cons.mp hinc).1
  rw [← above_above (Nat.le_of_lt hc) l, ha]
  show List.filter _ (a :: t) = t
  rw [List.filter_cons_of_neg (by simp)]
  exact above_eq_self hlt

/-- Entries with the same key are the same. -/
theorem Increasing.eq_of_key {l : List α} {a b : α} (h : Increasing key l) (ha : a ∈ l)
    (hb : b ∈ l) (hk : key a = key b) : a = b := by
  by_contra hne
  have hdiff : l.Pairwise fun x y => key x ≠ key y := h.imp Nat.ne_of_lt
  have : Std.Symm fun x y : α => key x ≠ key y := ⟨fun _ _ h => h.symm⟩
  exact hdiff.forall ha hb hne hk

/-! ## Backwards -/

variable (key)

/-- The entries below the cursor, all of them without one. -/
def below (before : Option Nat) (l : List α) : List α :=
  l.filter fun a => before.all fun c => decide (key a < c)

variable {key}

/-- The last `n` entries. -/
def lastPage (n : Nat) (l : List α) : List α := l.drop (l.length - n)

theorem lastPage_eq_reverse (n : Nat) (l : List α) :
    (l.reverse.take n).reverse = lastPage n l := by
  rw [List.reverse_take, List.reverse_reverse, List.length_reverse]
  rfl

@[simp] theorem below_none (l : List α) : below key none l = l := by
  simp [below]

/-- Below the key of an entry are the entries before it. -/
theorem Increasing.below_key {l : List α} (h : Increasing key l) {i : Nat} (hi : i < l.length) :
    below key (some (key l[i])) l = l.take i := by
  have hsplit : l = l.take i ++ l[i] :: l.drop (i + 1) := by
    rw [← List.drop_eq_getElem_cons hi, List.take_append_drop]
  generalize l[i] = x at hsplit ⊢
  have hinc := h
  rw [hsplit, Increasing.append] at hinc
  obtain ⟨-, hrest, hlt⟩ := hinc
  have hlater := (List.pairwise_cons.mp hrest).1
  unfold below
  conv_lhs => rw [hsplit]
  rw [List.filter_append, List.filter_eq_self.mpr, List.filter_eq_nil_iff.mpr, List.append_nil]
  · intro b hb
    rcases List.mem_cons.mp hb with rfl | hb
    · simp
    · have := hlater b hb
      simp
      omega
  · intro a ha
    have := hlt a ha x List.mem_cons_self
    simpa using this

section
variable (fetch : Nat → Option Nat → List α) (next : List α → Option Nat → Option Nat)

/-- The cursor of request `k`; `none` when the reader has stopped. -/
def cursorAt : Nat → Option (Option Nat)
  | 0 => some none
  | k + 1 => (cursorAt k).bind fun before => (next (fetch k before) before).map some

/-- The entries of page `k`. -/
def pageAt (k : Nat) : List α := ((cursorAt fetch next k).map (fetch k)).getD []

/-- The first `k` pages, the last one in front. -/
def loaded : Nat → List α
  | 0 => []
  | k + 1 => pageAt fetch next k ++ loaded k

variable {fetch next}

/-- **Backwards.** A reader of pages of `n` stops after `l.length / n + 1` of them, with every
entry once and in order. The log may change above the cursor. -/
theorem backward_complete {n : Nat} (hn : 0 < n) {l : List α} (hl : Increasing key l)
    (hfetch : ∀ k before, cursorAt fetch next k = some before →
      fetch k before = lastPage n (below key before l))
    (hnext : ∀ k before, cursorAt fetch next k = some before →
      next (fetch k before) before =
        if (fetch k before).length < n then none else (fetch k before).head?.map key) :
    (∀ k ≤ l.length / n, cursorAt fetch next k ≠ none) ∧
      cursorAt fetch next (l.length / n + 1) = none ∧
      loaded fetch next (l.length / n + 1) = l := by
  -- what is left after `k` full pages
  have hrun : ∀ k ≤ l.length / n, ∃ before, cursorAt fetch next k = some before ∧
      below key before l = l.take (l.length - k * n) ∧
      loaded fetch next k = l.drop (l.length - k * n) := by
    intro k
    induction k with
    | zero => exact fun _ => ⟨none, rfl, by simp, by simp [loaded]⟩
    | succ k ih =>
      intro hk
      obtain ⟨before, hcursor, hbelow, hloaded⟩ := ih (Nat.le_of_succ_le hk)
      have hmul : (k + 1) * n ≤ l.length := (Nat.le_div_iff_mul_le hn).mp hk
      rw [Nat.succ_mul] at hmul ⊢
      have hpage : fetch k before = (l.take (l.length - k * n)).drop (l.length - (k * n + n)) := by
        rw [hfetch k before hcursor, hbelow, lastPage, List.length_take]
        congr 1
        omega
      have hlength : (fetch k before).length = n := by
        rw [hpage, List.length_drop, List.length_take]
        omega
      have hi : l.length - (k * n + n) < l.length := by omega
      have hhead : (fetch k before).head? = some l[l.length - (k * n + n)] := by
        rw [hpage, List.head?_drop, List.getElem?_take_of_lt (by omega), List.getElem?_eq_getElem hi]
      refine ⟨some (key l[l.length - (k * n + n)]), ?_, hl.below_key hi, ?_⟩
      · rw [cursorAt, hcursor, Option.bind_some, hnext k before hcursor, hlength, hhead]
        simp
      · rw [loaded, pageAt, hcursor, Option.map_some, Option.getD_some, hloaded, hpage]
        have htake : l.drop (l.length - k * n) =
            (l.drop (l.length - (k * n + n))).drop n := by
          rw [List.drop_drop]
          congr 1
          omega
        rw [htake, List.drop_take]
        have hn' : l.length - k * n - (l.length - (k * n + n)) = n := by omega
        rw [hn', List.take_append_drop]
  refine ⟨fun k hk hnone => ?_, ?_, ?_⟩
  · obtain ⟨before, hcursor, -⟩ := hrun k hk
    cases hnone.symm.trans hcursor
  all_goals
    obtain ⟨before, hcursor, hbelow, hloaded⟩ := hrun _ (Nat.le_refl _)
    have hmod : l.length - l.length / n * n = l.length % n := by
      have := Nat.div_add_mod' l.length n
      omega
    have hlt : l.length % n < n := Nat.mod_lt _ hn
    have hpage : fetch (l.length / n) before = l.take (l.length % n) := by
      have hlen := List.length_take (i := l.length % n) (l := l)
      rw [hfetch _ before hcursor, hbelow, hmod, lastPage, Nat.sub_eq_zero_of_le (by omega),
        List.drop_zero]
  · have hshort : (fetch (l.length / n) before).length < n := by
      rw [hpage, List.length_take]
      omega
    rw [cursorAt, hcursor, Option.bind_some, hnext _ before hcursor, if_pos hshort]
    rfl
  · rw [loaded, pageAt, hcursor, Option.map_some, Option.getD_some, hloaded, hpage, hmod,
      List.take_append_drop]

end

end Core.Paging
