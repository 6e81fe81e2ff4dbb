import Mathlib.Data.List.Induction

/-!
# Fixed-window counters

A counter that grants `m` calls in a window of length `w`. A call that finds no
window, or one it comes too late for, opens its own.

* `Visited`: what the calls made so far say about the window that is open.
* `visited`: it holds after any calls whose times do not decrease.
* `granted_le`, `granted_between_le`: how many calls a window grants, and any
  interval of length `w`.
* `full_of_refused`: what was granted before a call that is refused.
-/
namespace Core

/-- When it was opened, and how many calls it granted. -/
structure Window where
  start : Nat
  used : Nat
  deriving DecidableEq, Repr

namespace Window

/-- A call: its time, and the window as the call found or opened it. -/
structure Visit where
  time : Nat
  window : Window
  deriving DecidableEq, Repr

/-- The window a call is counted in. -/
def entered (w now : Nat) : Option Window → Window
  | none => ⟨now, 0⟩
  | some v => if now - v.start ≤ w then v else ⟨now, 0⟩

/-- The window after the call. -/
def left (m : Nat) (v : Window) : Window := if v.used < m then ⟨v.start, v.used + 1⟩ else v

/-- One more call, after the calls so far and the window they left. -/
def visit (w m : Nat) (x : List Visit × Option Window) (now : Nat) : List Visit × Option Window :=
  (x.1 ++ [⟨now, entered w now x.2⟩], some (left m (entered w now x.2)))

def visits (w m : Nat) (times : List Nat) : List Visit × Option Window :=
  times.foldl (visit w m) ([], none)

def Visit.granted (m : Nat) (v : Visit) : Bool := v.window.used < m

/-- The calls granted in the window opened at `start`. -/
def grantedIn (m start : Nat) (l : List Visit) : Nat :=
  l.countP fun v => v.granted m && v.window.start == start

variable {w m : Nat}

theorem visits_concat (times : List Nat) (now : Nat) :
    visits w m (times ++ [now]) = visit w m (visits w m times) now := by
  simp only [visits, List.foldl_append, List.foldl_cons, List.foldl_nil]

@[simp] theorem left_start (v : Window) : (v.left m).start = v.start := by
  unfold left
  split <;> rfl

theorem grantedIn_append (start : Nat) (l l' : List Visit) :
    grantedIn m start (l ++ l') = grantedIn m start l + grantedIn m start l' :=
  List.countP_append

theorem grantedIn_singleton (start : Nat) (v : Visit) :
    grantedIn m start [v] = if v.window.used < m ∧ v.window.start = start then 1 else 0 := by
  simp [grantedIn, List.countP_singleton, Visit.granted]

/-! ## The calls of a run -/

/-- The same window, or one that was closed before the other was opened. -/
def Before (w : Nat) (a b : Window) : Prop := a.start = b.start ∨ a.start + w < b.start

/-- What holds of the calls so far, and of the window they left. -/
structure Visited (w m : Nat) (times : List Nat) (x : List Visit × Option Window) : Prop where
  map_time : x.1.map Visit.time = times
  within : ∀ v ∈ x.1, v.window.start ≤ v.time ∧ v.time ≤ v.window.start + w
  ordered : x.1.Pairwise fun a b => Before w a.window b.window
  counted : ∀ before v after, x.1 = before ++ v :: after →
    v.window.used = grantedIn m v.window.start before
  limited : ∀ start, grantedIn m start x.1 ≤ m
  fresh : x.2 = none → x.1 = []
  open_mem : ∀ o, x.2 = some o → o.start ∈ times
  open_after : ∀ o, x.2 = some o → ∀ v ∈ x.1, Before w v.window o
  open_counted : ∀ o, x.2 = some o → o.used = grantedIn m o.start x.1

theorem Visited.nil : Visited w m [] ([], none) where
  map_time := rfl
  within := by simp
  ordered := .nil
  counted := by simp
  limited := fun _ => Nat.zero_le _
  fresh := fun _ => rfl
  open_mem := nofun
  open_after := nofun
  open_counted := nofun

section
variable {times : List Nat} {x : List Visit × Option Window} {now : Nat}

/-- The window a call is counted in: it holds the call, the calls before it are in it or in
windows closed before it, and it counts those that are in it. -/
theorem Visited.entered (h : Visited w m times x) (hnow : ∀ t ∈ times, t ≤ now) :
    (entered w now x.2).start ≤ now ∧ now ≤ (entered w now x.2).start + w ∧
      (∀ v ∈ x.1, Before w v.window (entered w now x.2)) ∧
      (entered w now x.2).used = grantedIn m (entered w now x.2).start x.1 := by
  cases ho : x.2 with
  | none => simp [Window.entered, h.fresh ho, grantedIn]
  | some o =>
    have hle : o.start ≤ now := hnow _ (h.open_mem o ho)
    by_cases hw : now - o.start ≤ w
    · simp only [Window.entered, if_pos hw]
      exact ⟨hle, by omega, h.open_after o ho, h.open_counted o ho⟩
    · simp only [Window.entered, if_neg hw]
      have hlate : ∀ v ∈ x.1, v.window.start + w < now := by
        intro v hv
        rcases h.open_after o ho v hv with heq | hlt <;> omega
      refine ⟨Nat.le_refl now, by omega, fun v hv => .inr (hlate v hv), ?_⟩
      symm
      refine List.countP_eq_zero.mpr fun v hv => ?_
      have := hlate v hv
      simp only [Bool.and_eq_true, beq_iff_eq, not_and]
      omega

/-- A call keeps it. -/
theorem Visited.visit (h : Visited w m times x) (hnow : ∀ t ∈ times, t ≤ now) :
    Visited w m (times ++ [now]) (visit w m x now) := by
  obtain ⟨hle, hw, hbefore, hused⟩ := h.entered hnow
  have hcount : ∀ start, grantedIn m start (Window.visit w m x now).1 =
      grantedIn m start x.1 + if (Window.entered w now x.2).used < m ∧
        (Window.entered w now x.2).start = start then 1 else 0 := by
    intro start
    rw [Window.visit, grantedIn_append, grantedIn_singleton]
  refine ⟨?_, ?_, ?_, ?_, ?_, nofun, ?_, ?_, ?_⟩
  · simp [Window.visit, h.map_time]
  · intro v hv
    rcases List.mem_append.mp hv with hv | hv
    · exact h.within v hv
    · rw [List.mem_singleton.mp hv]
      exact ⟨hle, hw⟩
  · refine List.pairwise_append.mpr
      ⟨h.ordered, List.pairwise_singleton _ _, fun v hv v' hv' => ?_⟩
    rw [List.mem_singleton.mp hv']
    exact hbefore v hv
  · intro before v after heq
    rcases List.eq_nil_or_concat after with rfl | ⟨after, last, rfl⟩
    · obtain ⟨rfl, hv⟩ := List.append_inj' heq rfl
      cases hv
      exact hused
    · have heq' :
          x.1 ++ [⟨now, Window.entered w now x.2⟩] = (before ++ v :: after) ++ [last] := by
        simpa [Window.visit] using heq
      exact h.counted before v after (List.append_inj' heq' rfl).1
  · intro start
    rw [hcount]
    split
    · next hgranted => rw [← hgranted.2, ← hused]; omega
    · exact h.limited start
  · intro o ho
    cases ho
    rw [left_start]
    cases ho : x.2 with
    | none => simp [Window.entered]
    | some o =>
      simp only [Window.entered]
      split
      · exact List.mem_append_left _ (h.open_mem o ho)
      · simp
  · intro o ho v hv
    cases ho
    unfold Before
    rw [left_start]
    rcases List.mem_append.mp hv with hv | hv
    · exact hbefore v hv
    · rw [List.mem_singleton.mp hv]
      exact .inl rfl
  · intro o ho
    cases ho
    rw [left_start, hcount, ← hused, left]
    split
    · next hlt => simp [hlt]
    · next hlt => simp [hlt]

end

/-- It holds after calls whose times do not decrease. -/
theorem visited {times : List Nat} (h : times.Pairwise (· ≤ ·)) :
    Visited w m times (visits w m times) := by
  induction times using List.reverseRecOn with
  | nil => exact .nil
  | append_singleton times now ih =>
    obtain ⟨hbefore, -, hnow⟩ := List.pairwise_append.mp h
    rw [visits_concat]
    exact (ih hbefore).visit fun t ht => hnow t ht now (List.mem_singleton_self _)

/-! ## Bounds -/

section
variable {times : List Nat} {x : List Visit × Option Window}

/-- At most two windows meet an interval of length `w`. -/
theorem Visited.two_windows (h : Visited w m times x) {l : List Visit} (hl : l.Sublist x.1)
    {t : Nat} (ht : ∀ v ∈ l, t ≤ v.time ∧ v.time ≤ t + w) :
    ∃ a b, ∀ v ∈ l, v.window.start = a ∨ v.window.start = b := by
  have hordered := h.ordered.sublist hl
  rcases List.eq_nil_or_concat l with rfl | ⟨l, last, rfl⟩
  · exact ⟨0, 0, by simp⟩
  cases l with
  | nil => exact ⟨last.window.start, last.window.start, by simp⟩
  | cons first l =>
    refine ⟨first.window.start, last.window.start, fun v hv => ?_⟩
    rw [List.concat_eq_append] at hordered hl ht hv
    have hfirst := List.pairwise_cons.mp hordered
    have hlast := (List.pairwise_append.mp hordered).2.2
    simp only [List.mem_append, List.mem_cons, List.not_mem_nil, or_false] at hv
    rcases hv with (rfl | hv) | rfl
    · exact .inl rfl
    · -- between the two: if it is neither, the first and the last are more than `w` apart
      have hv₁ := hfirst.1 v (by simp [hv])
      have hv₂ := hlast v (by simp [hv]) last (by simp)
      have h₁ := h.within first (hl.subset (by simp))
      have h₂ := h.within last (hl.subset (by simp))
      have ht₁ := ht first (by simp)
      have ht₂ := ht last (by simp)
      unfold Before at hv₁ hv₂
      omega
    · exact .inr rfl

theorem countP_le {l : List Visit} {a b : Nat}
    (h : ∀ v ∈ l, v.window.start = a ∨ v.window.start = b) :
    l.countP (Visit.granted m) ≤ grantedIn m a l + grantedIn m b l := by
  induction l with
  | nil => exact Nat.zero_le _
  | cons v l ih =>
    have hl := ih fun v' hv' => h v' (List.mem_cons_of_mem _ hv')
    have hv := h v List.mem_cons_self
    unfold grantedIn at hl ⊢
    simp only [List.countP_cons]
    rcases hv with rfl | rfl <;> cases v.granted m <;> simp <;> omega

theorem Visited.granted_between_le (h : Visited w m times x) (t : Nat) :
    (x.1.countP fun v => v.granted m && (decide (t ≤ v.time) && decide (v.time ≤ t + w))) ≤
      2 * m := by
  set l := x.1.filter fun v => decide (t ≤ v.time) && decide (v.time ≤ t + w) with hl
  have hsub : l.Sublist x.1 := List.filter_sublist
  obtain ⟨a, b, hab⟩ := h.two_windows hsub (t := t) (by simp [hl])
  calc x.1.countP (fun v => v.granted m && (decide (t ≤ v.time) && decide (v.time ≤ t + w)))
      = l.countP (Visit.granted m) := by rw [hl, List.countP_filter]
    _ ≤ grantedIn m a l + grantedIn m b l := countP_le hab
    _ ≤ m + m := Nat.add_le_add (Nat.le_trans hsub.countP_le (h.limited a))
        (Nat.le_trans hsub.countP_le (h.limited b))
    _ = 2 * m := by omega

/-- Before a call that is refused, `m` calls were granted within `w`. -/
theorem Visited.full_of_refused (h : Visited w m times x) {before after : List Visit} {v : Visit}
    (heq : x.1 = before ++ v :: after) (hv : ¬ v.window.used < m) :
    m ≤ before.countP fun b => b.granted m && decide (v.time ≤ b.time + w) := by
  have hused := h.counted before v after heq
  calc m ≤ grantedIn m v.window.start before := by omega
    _ ≤ before.countP fun b => b.granted m && decide (v.time ≤ b.time + w) := by
        refine List.countP_mono_left fun b hb hgranted => ?_
        have hb' := h.within b (by simp [heq, hb])
        have hv' := h.within v (by simp [heq])
        simp only [Bool.and_eq_true, beq_iff_eq, decide_eq_true_eq] at hgranted ⊢
        exact ⟨hgranted.1, by omega⟩

end

end Window

end Core
