import Mathlib.Data.Nat.Find
import Mathlib.Data.String.Basic

/-!
# Times as text

A count of nanoseconds since the beginning of the year 0, printed the way
RFC 3339 has it, in the shortest exact form: `YYYY-MM-DDTHH:MM:SS`, nothing or
a fraction of 3, 6 or 9 digits, `+00:00`.

* `text_lt`: up to the end of the year 9999 the later time has the greater text.
-/
namespace Core.TimeText

/-! ## Digits -/

/-- The last `width` decimal digits of `n`, most significant first. -/
def digits : Nat → Nat → List Char
  | 0, _ => []
  | width + 1, n => digits width (n / 10) ++ [Nat.digitChar (n % 10)]

@[simp] theorem length_digits (width n : Nat) : (digits width n).length = width := by
  induction width generalizing n with
  | zero => rfl
  | succ width ih => simp [digits, ih]

theorem digitChar_lt {a b : Nat} (h : a < b) (hb : b < 10) : Nat.digitChar a < Nat.digitChar b := by
  have hall : ∀ b : Fin 10, ∀ a : Fin b.val, Nat.digitChar a.val < Nat.digitChar b.val := by decide
  exact hall ⟨b, hb⟩ ⟨a, h⟩

section
variable {α : Type} [LT α] {xs ys us vs : List α}

/-- Of two texts whose first pieces are as long the first piece decides, then the rest. -/
theorem append_lt (hlen : xs.length = ys.length) (h : xs < ys ∨ (xs = ys ∧ us < vs)) :
    xs ++ us < ys ++ vs := by
  induction xs generalizing ys with
  | nil =>
    obtain rfl := List.length_eq_zero_iff.mp hlen.symm
    rcases h with h | ⟨-, h⟩
    · cases h
    · exact h
  | cons x xs ih =>
    cases ys with
    | nil => cases hlen
    | cons y ys =>
      have hlen : xs.length = ys.length := Nat.succ.inj hlen
      rw [List.cons_append, List.cons_append, List.cons_lt_cons_iff]
      rcases h with h | ⟨h, hrest⟩
      · rcases List.cons_lt_cons_iff.mp h with h | ⟨hxy, h⟩
        · exact .inl h
        · exact .inr ⟨hxy, ih hlen (.inl h)⟩
      · obtain ⟨hxy, h⟩ := List.cons.inj h
        exact .inr ⟨hxy, ih hlen (.inr ⟨h, hrest⟩)⟩

end

theorem digits_lt {width m n : Nat} (h : m < n) (hn : n < 10 ^ width) :
    digits width m < digits width n := by
  induction width generalizing m n with
  | zero => omega
  | succ width ih =>
    refine append_lt (by simp) ?_
    rcases Nat.lt_or_ge (m / 10) (n / 10) with hlt | hge
    · exact .inl (ih hlt (by omega))
    · have heq : m / 10 = n / 10 := by omega
      have hlast : Nat.digitChar (m % 10) < Nat.digitChar (n % 10) :=
        digitChar_lt (by omega) (by omega)
      exact .inr ⟨by rw [heq], List.cons_lt_cons_iff.mpr (.inl hlast)⟩

/-- Digits side by side are those of one number. -/
theorem digits_add (v w n : Nat) : digits (v + w) n = digits v (n / 10 ^ w) ++ digits w n := by
  induction w generalizing n with
  | zero => simp [digits]
  | succ w ih =>
    rw [← Nat.add_assoc, digits, digits, ih, List.append_assoc, Nat.div_div_eq_div_mul,
      Nat.pow_succ, Nat.mul_comm 10]

/-- Only the last digits are read. -/
theorem digits_mod (width n : Nat) : digits width (n % 10 ^ width) = digits width n := by
  induction width generalizing n with
  | zero => rfl
  | succ width ih =>
    have hdiv : n % 10 ^ (width + 1) / 10 = n / 10 % 10 ^ width := by
      rw [Nat.pow_succ, Nat.mul_comm, Nat.mod_mul_right_div_self]
    have hmod : n % 10 ^ (width + 1) % 10 = n % 10 := by
      rw [Nat.pow_succ, Nat.mul_comm, Nat.mod_mul_right_mod]
    rw [digits, hdiv, hmod, ih, digits]

/-! ## Days -/

def isLeap (year : Nat) : Bool := year % 4 == 0 && (year % 100 != 0 || year % 400 == 0)

/-- The days before the first of January. -/
def daysBeforeYear (year : Nat) : Nat :=
  365 * year + (year + 3) / 4 - (year + 99) / 100 + (year + 399) / 400

theorem daysBeforeYear_succ (year : Nat) :
    daysBeforeYear (year + 1) = daysBeforeYear year + if isLeap year then 366 else 365 := by
  have h₄ : (year + 1 + 3) / 4 = (year + 3) / 4 + if year % 4 = 0 then 1 else 0 := by
    split <;> omega
  have h₁₀₀ : (year + 1 + 99) / 100 = (year + 99) / 100 + if year % 100 = 0 then 1 else 0 := by
    split <;> omega
  have h₄₀₀ : (year + 1 + 399) / 400 = (year + 399) / 400 + if year % 400 = 0 then 1 else 0 := by
    split <;> omega
  have hless : (year + 99) / 100 ≤ 365 * year + (year + 3) / 4 := by omega
  unfold daysBeforeYear isLeap
  rw [h₄, h₁₀₀, h₄₀₀]
  generalize (year + 3) / 4 = a, (year + 99) / 100 = b, (year + 399) / 400 = c at *
  by_cases hfour : year % 4 = 0 <;> by_cases hhundred : year % 100 = 0 <;>
    by_cases hfourhundred : year % 400 = 0 <;> simp [hfour, hhundred, hfourhundred] <;> omega

/-- The days of the year before the first of the month; January is month 0. -/
def daysBeforeMonth (leap : Bool) (month : Nat) : Nat :=
  [0, 31, 59, 90, 120, 151, 181, 212, 243, 273, 304, 334].getD month 0 +
    if leap && decide (2 ≤ month) then 1 else 0

/-- The year of a day. -/
def yearOf (day : Nat) : Nat := Nat.findGreatest (daysBeforeYear · ≤ day) 9999

/-- The month of a day of the year. -/
def monthOf (leap : Bool) (day : Nat) : Nat := Nat.findGreatest (daysBeforeMonth leap · ≤ day) 11

theorem yearOf_mono {d d' : Nat} (h : d ≤ d') : yearOf d ≤ yearOf d' :=
  Nat.findGreatest_mono (fun _ hy => Nat.le_trans hy h) (Nat.le_refl _)

theorem monthOf_mono (leap : Bool) {d d' : Nat} (h : d ≤ d') : monthOf leap d ≤ monthOf leap d' :=
  Nat.findGreatest_mono (fun _ hm => Nat.le_trans hm h) (Nat.le_refl _)

theorem yearOf_le (d : Nat) : yearOf d ≤ 9999 := Nat.findGreatest_le _

theorem monthOf_le (leap : Bool) (d : Nat) : monthOf leap d ≤ 11 := Nat.findGreatest_le _

/-- A day is in its year. -/
theorem yearOf_spec {d : Nat} (hd : d < daysBeforeYear 10000) :
    daysBeforeYear (yearOf d) ≤ d ∧ d < daysBeforeYear (yearOf d + 1) := by
  refine ⟨Nat.findGreatest_spec (P := (daysBeforeYear · ≤ d)) (Nat.zero_le _) (Nat.zero_le d), ?_⟩
  rcases Nat.eq_or_lt_of_le (yearOf_le d) with h | h
  · rw [h]
    exact hd
  · exact Nat.not_le.mp
      (Nat.findGreatest_is_greatest (P := (daysBeforeYear · ≤ d)) (Nat.lt_succ_self _) h)

theorem daysBeforeMonth_zero (leap : Bool) : daysBeforeMonth leap 0 = 0 := by
  cases leap <;> rfl

/-- A day is in its month. -/
theorem monthOf_spec (leap : Bool) {d : Nat} (hd : d ≤ 365) :
    daysBeforeMonth leap (monthOf leap d) ≤ d ∧ d < daysBeforeMonth leap (monthOf leap d) + 32 := by
  have hzero : daysBeforeMonth leap 0 ≤ d := by
    rw [daysBeforeMonth_zero]
    exact Nat.zero_le d
  refine ⟨Nat.findGreatest_spec (P := (daysBeforeMonth leap · ≤ d)) (Nat.zero_le _) hzero, ?_⟩
  rcases Nat.eq_or_lt_of_le (monthOf_le leap d) with h | h
  · have hdecember : 334 ≤ daysBeforeMonth leap 11 := by cases leap <;> decide
    rw [h]
    omega
  · have hnext := Nat.not_le.mp
      (Nat.findGreatest_is_greatest (P := (daysBeforeMonth leap · ≤ d)) (Nat.lt_succ_self _) h)
    have hlength : ∀ m < 11, daysBeforeMonth leap (m + 1) ≤ daysBeforeMonth leap m + 31 := by
      cases leap <;> decide
    exact Nat.lt_succ_of_le (Nat.le_trans (Nat.le_of_lt hnext) (hlength _ h))

/-! ## The text -/

/-- `YYYY-MM-DD`. -/
def dateText (day : Nat) : List Char :=
  let year := yearOf day
  let dayOfYear := day - daysBeforeYear year
  let month := monthOf (isLeap year) dayOfYear
  digits 4 year ++ ('-' :: digits 2 (month + 1) ++
    '-' :: digits 2 (dayOfYear - daysBeforeMonth (isLeap year) month + 1))

/-- `HH:MM:SS`. -/
def clockText (second : Nat) : List Char :=
  digits 2 (second / 3600) ++ (':' :: digits 2 (second % 3600 / 60) ++
    ':' :: digits 2 (second % 60))

/-- The shortest exact fraction of a second. -/
def fractionText (nanos : Nat) : List Char :=
  if nanos = 0 then []
  else if nanos % 1000000 = 0 then '.' :: digits 3 (nanos / 1000000)
  else if nanos % 1000 = 0 then '.' :: digits 6 (nanos / 1000)
  else '.' :: digits 9 nanos

def secondsOfDay : Nat := 86400

def nanosOfSecond : Nat := 1000000000

/-- The time `nanos` nanoseconds after the beginning of the year 0. -/
def text (nanos : Nat) : List Char :=
  let second := nanos / nanosOfSecond
  dateText (second / secondsOfDay) ++ ('T' :: clockText (second % secondsOfDay) ++
    (fractionText (nanos % nanosOfSecond) ++ "+00:00".toList))

/-- The end of the year 9999. -/
def limit : Nat := daysBeforeYear 10000 * secondsOfDay * nanosOfSecond

theorem length_dateText (day : Nat) : (dateText day).length = 10 := by
  simp [dateText]

theorem length_clockText (second : Nat) : (clockText second).length = 8 := by
  simp [clockText]

theorem cons_lt {c : Char} {us vs : List Char} (h : us < vs) : c :: us < c :: vs :=
  List.cons_lt_cons_iff.mpr (.inr ⟨rfl, h⟩)

theorem dateText_lt {d d' : Nat} (h : d < d') (hd' : d' < daysBeforeYear 10000) :
    dateText d < dateText d' := by
  have hyear := yearOf_mono (Nat.le_of_lt h)
  unfold dateText
  refine append_lt (by simp) ?_
  rcases Nat.eq_or_lt_of_le hyear with heq | hlt
  · refine .inr ⟨by rw [heq], cons_lt ?_⟩
    obtain ⟨hstart, hend⟩ := yearOf_spec hd'
    have hstart' := (yearOf_spec (Nat.lt_trans h hd')).1
    rw [heq] at hstart' ⊢
    rw [daysBeforeYear_succ] at hend
    generalize isLeap (yearOf d') = leap at *
    generalize daysBeforeYear (yearOf d') = start at *
    have hday' : d' - start ≤ 365 := by split at hend <;> omega
    have hmonth := monthOf_mono leap (Nat.sub_le_sub_right (Nat.le_of_lt h) start)
    refine append_lt (by simp) ?_
    rcases Nat.eq_or_lt_of_le hmonth with heq | hlt
    · refine .inr ⟨by rw [heq], cons_lt ?_⟩
      have hspec := monthOf_spec leap hday'
      have hspec' := (monthOf_spec leap (d := d - start) (by omega)).1
      rw [heq] at hspec' ⊢
      exact digits_lt (by omega) (by omega)
    · have hle := monthOf_le leap (d' - start)
      exact .inl (digits_lt (by omega) (by omega))
  · have hle := yearOf_le d'
    exact .inl (digits_lt hlt (by omega))

theorem clockText_lt {s s' : Nat} (h : s < s') (hs' : s' < secondsOfDay) :
    clockText s < clockText s' := by
  unfold secondsOfDay at hs'
  unfold clockText
  refine append_lt (by simp) ?_
  rcases Nat.lt_or_ge (s / 3600) (s' / 3600) with hlt | hge
  · exact .inl (digits_lt hlt (by omega))
  · have heq : s / 3600 = s' / 3600 := by omega
    refine .inr ⟨by rw [heq], cons_lt (append_lt (by simp) ?_)⟩
    rcases Nat.lt_or_ge (s % 3600 / 60) (s' % 3600 / 60) with hlt | hge
    · exact .inl (digits_lt hlt (by omega))
    · have heq : s % 3600 / 60 = s' % 3600 / 60 := by omega
      exact .inr ⟨by rw [heq], cons_lt (digits_lt (by omega) (by omega))⟩

/-! ## Fractions

The digits come in groups of three, up to the last group that is not zero; what follows them is
less than a digit. -/

/-- The groups up to the last one that is not zero, and what follows. -/
def groupsText (rest : List Char) : List Nat → List Char
  | [] => rest
  | g :: gs => if g = 0 ∧ ∀ h ∈ gs, h = 0 then rest else digits 3 g ++ groupsText rest gs

theorem digitChar_ge {n : Nat} (h : n < 10) : '0' ≤ Nat.digitChar n := by
  have hall : ∀ n : Fin 10, '0' ≤ Nat.digitChar n.val := by decide
  exact hall ⟨n, h⟩

/-- Digits are greater than what does not begin with a digit. -/
theorem lt_digits {width n : Nat} {c : Char} (hc : c < '0') (us vs : List Char) :
    c :: us < digits (width + 1) n ++ vs := by
  induction width generalizing n vs with
  | zero =>
    exact List.cons_lt_cons_iff.mpr
      (.inl (lt_of_lt_of_le hc (digitChar_ge (Nat.mod_lt n (by decide)))))
  | succ width ih =>
    rw [digits, List.append_assoc]
    exact ih _

/-- Nothing is less than zeros. -/
theorem not_lt_zeros {l l' : List Nat} (hlen : l.length = l'.length) (h : ∀ n ∈ l', n = 0) :
    ¬ l < l' := by
  induction l generalizing l' with
  | nil =>
    obtain rfl := List.length_eq_zero_iff.mp hlen.symm
    exact List.not_lt_nil _
  | cons a l ih =>
    cases l' with
    | nil => cases hlen
    | cons b l' =>
      obtain ⟨rfl, hzeros⟩ := List.forall_mem_cons.mp h
      intro hlt
      rcases List.cons_lt_cons_iff.mp hlt with hlt | ⟨-, hlt⟩
      · exact Nat.not_lt_zero a hlt
      · exact ih (Nat.succ.inj hlen) hzeros hlt

theorem groupsText_lt {c : Char} {rest : List Char} (hc : c < '0') {gs hs : List Nat}
    (hlen : gs.length = hs.length) (hhs : ∀ h ∈ hs, h < 1000) (h : gs < hs) :
    groupsText (c :: rest) gs < groupsText (c :: rest) hs := by
  induction gs generalizing hs with
  | nil =>
    obtain rfl := List.length_eq_zero_iff.mp hlen.symm
    cases h
  | cons g gs ih =>
    cases hs with
    | nil => cases hlen
    | cons g' hs =>
      have hnonzero : ¬ (g' = 0 ∧ ∀ h ∈ hs, h = 0) := fun hzero =>
        not_lt_zeros hlen (List.forall_mem_cons.mpr hzero) h
      obtain ⟨hg', hrest⟩ := List.forall_mem_cons.mp hhs
      unfold groupsText
      rw [if_neg hnonzero]
      split
      · exact lt_digits hc _ _
      · refine append_lt (by simp) ?_
        rcases List.cons_lt_cons_iff.mp h with hlt | ⟨rfl, hlt⟩
        · exact .inl (digits_lt hlt hg')
        · exact .inr ⟨rfl, ih (Nat.succ.inj hlen) hrest hlt⟩

theorem digits_pair {width a b : Nat} (hb : b < 1000) :
    digits (width + 3) (a * 1000 + b) = digits width a ++ digits 3 b := by
  have hdiv : (a * 1000 + b) / 10 ^ 3 = a := by omega
  have hmod : (a * 1000 + b) % 10 ^ 3 = b := by omega
  rw [digits_add, hdiv, ← digits_mod 3 (a * 1000 + b), hmod]

/-- A fraction by groups. -/
theorem fractionText_append {a b c : Nat} (hb : b < 1000) (hc : c < 1000)
    (zone : List Char) : fractionText ((a * 1000 + b) * 1000 + c) ++ zone =
      if (a * 1000 + b) * 1000 + c = 0 then zone else '.' :: groupsText zone [a, b, c] := by
  unfold fractionText
  split
  · rfl
  · rename_i hpos
    have hmillis : ((a * 1000 + b) * 1000 + c) % 1000000 = 0 ↔ b = 0 ∧ c = 0 := by omega
    have hmicros : ((a * 1000 + b) * 1000 + c) % 1000 = 0 ↔ c = 0 := by omega
    have hfirst : ¬ (a = 0 ∧ ∀ h ∈ [b, c], h = 0) := by
      simp only [List.forall_mem_cons, List.not_mem_nil, false_implies, implies_true, and_true]
      omega
    rw [groupsText, if_neg hfirst]
    simp only [hmillis, hmicros, groupsText, List.forall_mem_cons, List.not_mem_nil, false_implies,
      implies_true, and_true]
    split
    · rename_i hzero
      have hdiv : ((a * 1000 + b) * 1000 + c) / 1000000 = a := by omega
      rw [hdiv]
      rfl
    · split
      · have hdiv : ((a * 1000 + b) * 1000 + c) / 1000 = a * 1000 + b := by omega
        rw [hdiv, digits_pair hb, List.cons_append, List.append_assoc]
      · rw [digits_pair hc, digits_pair hb, List.cons_append, List.append_assoc, List.append_assoc]

/-- A number of nanoseconds by groups. -/
theorem groups_of (n : Nat) (hn : n < nanosOfSecond) :
    ∃ a b c, a < 1000 ∧ b < 1000 ∧ c < 1000 ∧ n = (a * 1000 + b) * 1000 + c := by
  unfold nanosOfSecond at hn
  exact ⟨n / 1000000, n / 1000 % 1000, n % 1000, by omega, by omega, by omega, by omega⟩

theorem fractionText_lt {m n : Nat} (h : m < n) (hn : n < nanosOfSecond) {c : Char}
    {rest : List Char} (hc : c < '.') :
    fractionText m ++ c :: rest < fractionText n ++ c :: rest := by
  obtain ⟨a, b, d, ha, hb, hd, rfl⟩ := groups_of m (Nat.lt_trans h hn)
  obtain ⟨a', b', d', ha', hb', hd', rfl⟩ := groups_of n hn
  have hpos : ¬ (a' * 1000 + b') * 1000 + d' = 0 := by omega
  rw [fractionText_append hb hd, fractionText_append hb' hd', if_neg hpos]
  split
  · exact List.cons_lt_cons_iff.mpr (.inl hc)
  · refine cons_lt (groupsText_lt (hc.trans (by decide)) rfl (by simp [ha', hb', hd']) ?_)
    simp only [List.cons_lt_cons_iff, List.not_lt_nil, and_false, or_false]
    omega

/-! ## The order -/

/-- **The later time has the greater text.** -/
theorem text_lt {m n : Nat} (h : m < n) (hn : n < limit) : text m < text n := by
  have hdays : n / nanosOfSecond / secondsOfDay < daysBeforeYear 10000 := by
    unfold limit at hn
    rw [Nat.div_div_eq_div_mul, Nat.div_lt_iff_lt_mul (by decide), Nat.mul_comm nanosOfSecond,
      ← Nat.mul_assoc]
    exact hn
  have hday := Nat.div_le_div_right (c := secondsOfDay)
    (Nat.div_le_div_right (c := nanosOfSecond) (Nat.le_of_lt h))
  unfold text
  refine append_lt (by simp [length_dateText]) ?_
  rcases Nat.eq_or_lt_of_le hday with heq | hlt
  · refine .inr ⟨by rw [heq], cons_lt (append_lt (by simp [length_clockText]) ?_)⟩
    have hsecond : m / nanosOfSecond ≤ n / nanosOfSecond := Nat.div_le_div_right (Nat.le_of_lt h)
    rcases Nat.eq_or_lt_of_le hsecond with heq | hlt
    · refine .inr ⟨by rw [heq], fractionText_lt ?_ (Nat.mod_lt _ (by decide)) (by decide)⟩
      unfold nanosOfSecond at *
      omega
    · refine .inl (clockText_lt ?_ (Nat.mod_lt _ (by decide)))
      unfold secondsOfDay at *
      omega
  · exact .inl (dateText_lt hlt hdays)

/-- The text orders times as they come. -/
theorem text_lt_iff {m n : Nat} (hm : m < limit) (hn : n < limit) : text m < text n ↔ m < n := by
  refine ⟨fun h => ?_, fun h => text_lt h hn⟩
  by_contra hle
  rcases Nat.eq_or_lt_of_le (Nat.not_lt.mp hle) with rfl | hlt
  · exact lt_irrefl _ h
  · exact lt_asymm h (text_lt hlt hm)

end Core.TimeText
