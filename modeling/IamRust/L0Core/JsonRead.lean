import IamRust.L0Core.JsonText

/-!
# Reading JSON texts

A reader after `serde_json`: white space between the tokens, escapes with pairs of
surrogates, integers that fit 64 bits, and a limit to how deep arrays and objects
nest. A number with a fraction or an exponent is none of the numbers of `Json`, and
is refused.

* `readable`: a value within the limit whose numbers fit.
* `readValue_write`: the text of a readable value is read back, whatever follows it.
* `read_write`: the same for a whole text.
-/
namespace Core.Json

/-! ## Characters -/

def isSpace (c : Char) : Bool := c == ' ' || c == '\n' || c == '\t' || c == '\r'

def skipSpace (s : List Char) : List Char := s.dropWhile isSpace

theorem skipSpace_cons {c : Char} (h : isSpace c = false) (s : List Char) :
    skipSpace (c :: s) = c :: s := by
  simp [skipSpace, h]

/-- A hexadecimal digit, of either case. -/
def hexValue (c : Char) : Option Nat :=
  if '0'.toNat ≤ c.toNat ∧ c.toNat ≤ '9'.toNat then some (c.toNat - '0'.toNat)
  else if 'a'.toNat ≤ c.toNat ∧ c.toNat ≤ 'f'.toNat then some (c.toNat - 'a'.toNat + 10)
  else if 'A'.toNat ≤ c.toNat ∧ c.toNat ≤ 'F'.toNat then some (c.toNat - 'A'.toNat + 10)
  else none

def readHex4 : List Char → Option (Nat × List Char)
  | a :: b :: c :: d :: s => do
    let a ← hexValue a
    let b ← hexValue b
    let c ← hexValue c
    let d ← hexValue d
    some (a * 4096 + b * 256 + c * 16 + d, s)
  | _ => none

/-- What follows `\u`: a code unit, or a pair of surrogates. -/
def readUnicode (s : List Char) : Option (Char × List Char) :=
  match readHex4 s with
  | none => none
  | some (n, s) =>
    if 0xD800 ≤ n ∧ n < 0xDC00 then
      match s with
      | '\x5c' :: 'u' :: s =>
        match readHex4 s with
        | none => none
        | some (m, s) =>
          if 0xDC00 ≤ m ∧ m < 0xE000 then
            some (Char.ofNat (0x10000 + (n - 0xD800) * 0x400 + (m - 0xDC00)), s)
          else none
      | _ => none
    else if 0xDC00 ≤ n ∧ n < 0xE000 then none
    else some (Char.ofNat n, s)

/-- What follows a backslash. -/
def readEscape : List Char → Option (Char × List Char)
  | [] => none
  | c :: s =>
    if c = 'u' then readUnicode s
    else if c = 'b' then some ('\x08', s)
    else if c = 't' then some ('\x09', s)
    else if c = 'n' then some ('\x0a', s)
    else if c = 'f' then some ('\x0c', s)
    else if c = 'r' then some ('\x0d', s)
    else if c = '\x22' ∨ c = '\x5c' ∨ c = '/' then some (c, s)
    else none

/-- The characters up to the closing quotation mark. -/
def readChars : Nat → List Char → Option (List Char × List Char)
  | 0, _ | _, [] => none
  | fuel + 1, c :: s =>
    if c = '\x22' then some ([], s)
    else if c = '\x5c' then
      match readEscape s with
      | none => none
      | some (c, s) => (readChars fuel s).map fun r => (c :: r.1, r.2)
    else if c.toNat < 0x20 then none
    else (readChars fuel s).map fun r => (c :: r.1, r.2)

theorem readUnicode_control {n : Nat} (h : n < 0x20) (s : List Char) :
    readUnicode ('0' :: '0' :: Nat.digitChar (n / 16) :: Nat.digitChar (n % 16) :: s) =
      some (Char.ofNat n, s) := by
  have hhigh : ∀ n < 0x20, hexValue (Nat.digitChar (n / 16)) = some (n / 16) := by decide
  have hlow : ∀ n < 0x20, hexValue (Nat.digitChar (n % 16)) = some (n % 16) := by decide
  have hzero : hexValue '0' = some 0 := by decide
  have hsum : 0 * 4096 + 0 * 256 + n / 16 * 16 + n % 16 = n := by omega
  unfold readUnicode readHex4
  simp only [hzero, hhigh n h, hlow n h, hsum, bind, Option.bind]
  rw [if_neg (by omega), if_neg (by omega)]

/-- A character is read back from its escape. -/
theorem readChars_escapeChar (c : Char) (fuel : Nat) (s : List Char) :
    readChars (fuel + 1) (escapeChar c ++ s) =
      (readChars fuel s).map fun r => (c :: r.1, r.2) := by
  have hc : c = Char.ofNat c.toNat := (Char.ofNat_toNat c).symm
  unfold escapeChar
  split
  case h_8 hquote hslash _ _ _ _ _ =>
    split
    · next hcontrol =>
      conv_rhs => rw [hc]
      simp only [List.cons_append, List.nil_append]
      rw [readChars, if_neg (by decide), if_pos rfl, readEscape, if_pos rfl,
        readUnicode_control hcontrol]
    · next hplain =>
      have h22 : c ≠ '\x22' := fun h => hquote (h ▸ rfl)
      have h5c : c ≠ '\x5c' := fun h => hslash (h ▸ rfl)
      rw [List.singleton_append, readChars, if_neg h22, if_neg h5c, if_neg hplain]
  all_goals
    rename_i heq
    conv_rhs => rw [hc, heq]
    rfl

/-- A text is read back from its escapes. -/
theorem readChars_escaped (l s : List Char) {fuel : Nat} (h : l.length < fuel) :
    readChars fuel (l.flatMap escapeChar ++ '\x22' :: s) = some (l, s) := by
  induction l generalizing fuel with
  | nil =>
    obtain ⟨fuel, rfl⟩ := Nat.exists_eq_succ_of_ne_zero (Nat.ne_of_gt h)
    rw [List.flatMap_nil, List.nil_append, readChars, if_pos rfl]
  | cons c l ih =>
    rw [List.length_cons] at h
    obtain ⟨fuel, rfl⟩ := Nat.exists_eq_succ_of_ne_zero (Nat.ne_of_gt (Nat.zero_lt_of_lt h))
    rw [List.flatMap_cons, List.append_assoc, readChars_escapeChar,
      ih (Nat.lt_of_succ_lt_succ h)]
    rfl

/-! ## Numbers -/

/-- The integers of 64 bits, with a sign or without. -/
def fits64 (n : Int) : Bool :=
  decide (-9223372036854775808 ≤ n) && decide (n < 18446744073709551616)

/-- What cannot follow a number. -/
def extendsNumber (c : Char) : Bool := c.isDigit || c == '.' || c == 'e' || c == 'E'

/-- Decimal digits without a zero in front; `-0` is no integer. -/
def readNumber (s : List Char) : Option (Int × List Char) :=
  let negative := s.head? == some '-'
  let s := if negative then s.tail else s
  let digits := s.takeWhile Char.isDigit
  let rest := s.dropWhile Char.isDigit
  let n : Int := Nat.ofDigitChars 10 digits 0
  let n := if negative then -n else n
  if digits.isEmpty || digits.head? == some '0' && digits.length != 1 ||
      rest.head?.any extendsNumber || negative && n == 0 || !fits64 n then none
  else some (n, rest)

theorem head_toDigits {n : Nat} (h : 0 < n) : (Nat.toDigits 10 n).head? ≠ some '0' := by
  induction n using Nat.strong_induction_on with
  | _ n ih =>
    rcases Nat.lt_or_ge n 10 with hlt | hge
    · have hdigit : ∀ n < 10, 0 < n → n.digitChar ≠ '0' := by decide
      rw [Nat.toDigits_of_lt_base hlt, List.head?_cons]
      exact fun heq => hdigit n hlt h (Option.some.inj heq)
    · have hrec := ih (n / 10) (by omega) (by omega)
      rw [Nat.toDigits_of_base_le (by decide) hge, List.head?_append]
      cases hd : (Nat.toDigits 10 (n / 10)).head? with
      | none => exact absurd (List.head?_eq_none_iff.mp hd) Nat.toDigits_ne_nil
      | some c => rwa [hd] at hrec

/-- The digits of a number, as the reader takes them off. -/
theorem takeWhile_toDigits (n : Nat) {rest : List Char}
    (h : rest.head?.any extendsNumber = false) :
    (Nat.toDigits 10 n ++ rest).takeWhile Char.isDigit = Nat.toDigits 10 n ∧
      (Nat.toDigits 10 n ++ rest).dropWhile Char.isDigit = rest := by
  have hdigits : ∀ c ∈ Nat.toDigits 10 n, c.isDigit = true := fun c hc =>
    Nat.isDigit_of_mem_toDigits (by decide) (by decide) hc
  rw [List.takeWhile_append_of_pos hdigits, List.dropWhile_append_of_pos hdigits]
  cases rest with
  | nil => simp
  | cons c rest =>
    have hc : c.isDigit = false := by
      simp only [List.head?_cons, Option.any_some, extendsNumber, Bool.or_eq_false_iff] at h
      exact h.1.1.1
    simp [hc]

/-- The digits of a number are those the reader wants. -/
theorem toDigits_plain (n : Nat) : ((Nat.toDigits 10 n).isEmpty ||
    (Nat.toDigits 10 n).head? == some '0' && (Nat.toDigits 10 n).length != 1) = false := by
  have hne : (Nat.toDigits 10 n).isEmpty = false := by simp [Nat.toDigits_ne_nil]
  rw [hne, Bool.false_or]
  rcases Nat.eq_zero_or_pos n with rfl | hpos
  · decide
  · rw [beq_eq_false_iff_ne.mpr (head_toDigits hpos), Bool.false_and]

theorem readNumber_write {n : Int} (hn : fits64 n = true) {rest : List Char}
    (h : rest.head?.any extendsNumber = false) :
    readNumber ((toString n).toList ++ rest) = some (n, rest) := by
  cases n with
  | ofNat n =>
    have htext : (toString (Int.ofNat n)).toList = Nat.toDigits 10 n := Nat.toList_repr
    have hsign : ((Nat.toDigits 10 n ++ rest).head? == some '-') = false := by
      rw [List.head?_append]
      cases hd : (Nat.toDigits 10 n).head? with
      | none => exact absurd (List.head?_eq_none_iff.mp hd) Nat.toDigits_ne_nil
      | some c =>
        have hc : c.isDigit = true :=
          Nat.isDigit_of_mem_toDigits (by decide) (by decide) (List.mem_of_head? hd)
        refine beq_eq_false_iff_ne.mpr fun heq => ?_
        cases Option.some.inj heq
        cases hc
    obtain ⟨htake, hdrop⟩ := takeWhile_toDigits n h
    unfold readNumber
    rw [htext, hsign]
    simp only [Bool.false_eq_true, if_false, htake, hdrop, toDigits_plain, h,
      Nat.ofDigitChars_ten_toDigits, Bool.false_and, Bool.false_or]
    rw [show fits64 ((n : Nat) : Int) = true from hn]
    rfl
  | negSucc n =>
    have htext : (toString (Int.negSucc n)).toList = '-' :: Nat.toDigits 10 (n + 1) := by
      change ("-" ++ (n + 1).repr).toList = _
      rw [String.toList_append, Nat.toList_repr]
      rfl
    obtain ⟨htake, hdrop⟩ := takeWhile_toDigits (n + 1) h
    have hneg : -(((n + 1 : Nat)) : Int) = Int.negSucc n := rfl
    have hzero : (Int.negSucc n == 0) = false := rfl
    unfold readNumber
    rw [htext]
    simp only [List.cons_append, List.head?_cons, beq_self_eq_true, if_true, List.tail_cons, htake,
      hdrop, toDigits_plain, h, Nat.ofDigitChars_ten_toDigits, hneg, hn, hzero, Bool.true_and,
      Bool.false_or, Bool.not_true, Bool.false_eq_true, if_false]

/-! ## Values -/

/-- The value, if the text follows. -/
def readLiteral (text : List Char) (j : Json) (s : List Char) : Option (Json × List Char) :=
  if text.isPrefixOf s then some (j, s.drop text.length) else none

mutual

/-- `limit`: how many arrays and objects may still be opened, one in the other. -/
def readValue : Nat → Nat → List Char → Option (Json × List Char)
  | 0, _, _ => none
  | fuel + 1, limit, s =>
    match skipSpace s with
    | [] => none
    | c :: s =>
      if c = '\x22' then
        (readChars (s.length + 1) s).map fun r => (.string (String.ofList r.1), r.2)
      else if c = '[' then
        if limit = 0 then none
        else if (skipSpace s).head? = some ']' then some (.array [], (skipSpace s).tail)
        else (readItems fuel (limit - 1) s).map fun r => (.array r.1, r.2)
      else if c = '\x7b' then
        if limit = 0 then none
        else if (skipSpace s).head? = some '\x7d' then some (.object [], (skipSpace s).tail)
        else (readFields fuel (limit - 1) s).map fun r => (.object r.1, r.2)
      else if c = 'n' then readLiteral ['u', 'l', 'l'] .null s
      else if c = 't' then readLiteral ['r', 'u', 'e'] (.bool true) s
      else if c = 'f' then readLiteral ['a', 'l', 's', 'e'] (.bool false) s
      else (readNumber (c :: s)).map fun r => (.number r.1, r.2)

/-- The items of an array and its end. -/
def readItems : Nat → Nat → List Char → Option (List Json × List Char)
  | 0, _, _ => none
  | fuel + 1, limit, s =>
    match readValue fuel limit s with
    | none => none
    | some (j, s) =>
      match skipSpace s with
      | [] => none
      | c :: s =>
        if c = ',' then (readItems fuel limit s).map fun r => (j :: r.1, r.2)
        else if c = ']' then some ([j], s)
        else none

/-- The fields of an object and its end. -/
def readFields : Nat → Nat → List Char → Option (List (String × Json) × List Char)
  | 0, _, _ => none
  | fuel + 1, limit, s =>
    if (skipSpace s).head? = some '\x22' then
      match readChars s.length (skipSpace s).tail with
      | none => none
      | some (key, s) =>
        if (skipSpace s).head? = some ':' then
          match readValue fuel limit (skipSpace s).tail with
          | none => none
          | some (j, s) =>
            match skipSpace s with
            | [] => none
            | c :: s =>
              if c = ',' then
                (readFields fuel limit s).map fun r => ((String.ofList key, j) :: r.1, r.2)
              else if c = '\x7d' then some ([(String.ofList key, j)], s)
              else none
        else none
    else none

end

/-- A text that is one value, with white space around it. -/
def read (limit : Nat) (text : String) : Option Json :=
  match readValue (text.toList.length + 1) limit text.toList with
  | none => none
  | some (j, s) => if (skipSpace s).isEmpty then some j else none

/-! ## What is written -/

mutual

/-- The value nests within the limit, and its numbers fit. -/
def readable : Nat → Json → Bool
  | _, .null | _, .bool _ | _, .string _ => true
  | _, .number n => fits64 n
  | limit, .array items => decide (0 < limit) && readableItems (limit - 1) items
  | limit, .object fields => decide (0 < limit) && readableFields (limit - 1) fields

def readableItems : Nat → List Json → Bool
  | _, [] => true
  | limit, j :: items => readable limit j && readableItems limit items

def readableFields : Nat → List (String × Json) → Bool
  | _, [] => true
  | limit, (_, j) :: fields => readable limit j && readableFields limit fields

end

/-- The parts of an array or an object, up to and with its end. -/
def partsText (close : Char) : List (List Char) → List Char
  | [] => [close]
  | [part] => part ++ [close]
  | part :: parts => part ++ ',' :: partsText close parts

theorem toList_join (close : Char) (parts : List String) :
    (Text.join "," parts).toList ++ [close] = partsText close (parts.map String.toList) := by
  induction parts with
  | nil => rfl
  | cons s parts ih =>
    cases parts with
    | nil => rfl
    | cons t parts =>
      rw [Text.join, String.toList_append, String.toList_append, List.append_assoc,
        List.append_assoc, ih]
      · rfl
      · exact fun h => by cases h

theorem writeText_string (s : String) :
    (write (.string s)).toList = '\x22' :: (s.toList.flatMap escapeChar ++ ['\x22']) := by
  simp [write, quote]

theorem writeText_array (items : List Json) :
    (write (.array items)).toList = '[' :: partsText ']' (items.map fun j => (write j).toList) := by
  rw [write, writeItems_eq, String.toList_append, String.toList_append, List.append_assoc,
    show "]".toList = [']'] from rfl, toList_join, List.map_map]
  rfl

/-- A field as it is written. -/
def fieldText (f : String × Json) : List Char :=
  '\x22' :: (f.1.toList.flatMap escapeChar ++ '\x22' :: ':' :: (write f.2).toList)

theorem writeText_object (fields : List (String × Json)) :
    (write (.object fields)).toList = '\x7b' :: partsText '\x7d' (fields.map fieldText) := by
  have hfield : String.toList ∘ (fun f : String × Json => quote f.1 ++ ":" ++ write f.2) =
      fieldText := by
    funext f
    simp [Function.comp, quote, fieldText]
  rw [write, writeFields_eq, String.toList_append, String.toList_append, List.append_assoc,
    show "\x7d".toList = ['\x7d'] from rfl, toList_join, List.map_map, hfield]
  rfl

/-- The first character of a number. -/
theorem head_int (n : Int) :
    ∃ c s, (toString n).toList = c :: s ∧ (c = '-' ∨ c.isDigit = true) := by
  cases n with
  | ofNat n =>
    have htext : (toString (Int.ofNat n)).toList = Nat.toDigits 10 n := Nat.toList_repr
    cases hd : Nat.toDigits 10 n with
    | nil => exact absurd hd Nat.toDigits_ne_nil
    | cons c s =>
      have hmem : c ∈ Nat.toDigits 10 n := hd ▸ List.mem_cons_self
      exact ⟨c, s, htext.trans hd, .inr (Nat.isDigit_of_mem_toDigits (by decide) (by decide) hmem)⟩
  | negSucc n => exact ⟨'-', (n + 1).repr.toList, String.toList_append, .inl rfl⟩

/-- No value starts with white space or with the end of an array. -/
theorem head_write (j : Json) :
    ∃ c s, (write j).toList = c :: s ∧ isSpace c = false ∧ c ≠ ']' := by
  cases j with
  | null => exact ⟨'n', _, rfl, by decide⟩
  | bool b =>
    cases b with
    | false => exact ⟨'f', _, rfl, by decide⟩
    | true => exact ⟨'t', _, rfl, by decide⟩
  | number n =>
    obtain ⟨c, s, htext, hc⟩ := head_int n
    refine ⟨c, s, htext, ?_⟩
    obtain rfl | hdigit := hc
    · decide
    · refine ⟨Bool.eq_false_iff.mpr fun h => ?_, by rintro rfl; cases hdigit⟩
      simp only [isSpace, Bool.or_eq_true, beq_iff_eq] at h
      obtain ((rfl | rfl) | rfl) | rfl := h <;> cases hdigit
  | string s => exact ⟨'\x22', _, writeText_string s, by decide⟩
  | array items => exact ⟨'[', _, writeText_array items, by decide⟩
  | object fields => exact ⟨'\x7b', _, writeText_object fields, by decide⟩

/-! ## What is read back -/

theorem length_escaped (l : List Char) : l.length ≤ (l.flatMap escapeChar).length := by
  have hone : ∀ c, 1 ≤ (escapeChar c).length := by
    intro c
    unfold escapeChar
    split
    case h_8 => split <;> simp
    all_goals exact Nat.succ_le_succ (Nat.zero_le _)
  induction l with
  | nil => exact Nat.le_refl 0
  | cons c l ih =>
    have hc := hone c
    rw [List.flatMap_cons, List.length_append, List.length_cons]
    omega

/-- The first character of a number starts nothing else. -/
theorem numeral_head {c : Char} (h : c = '-' ∨ c.isDigit = true) : isSpace c = false ∧
    c ≠ '\x22' ∧ c ≠ '[' ∧ c ≠ '\x7b' ∧ c ≠ 'n' ∧ c ≠ 't' ∧ c ≠ 'f' := by
  obtain rfl | hdigit := h
  · decide
  · have hspace : isSpace c = false := by
      refine Bool.eq_false_iff.mpr fun h => ?_
      simp only [isSpace, Bool.or_eq_true, beq_iff_eq] at h
      obtain ((rfl | rfl) | rfl) | rfl := h <;> cases hdigit
    refine ⟨hspace, ?_, ?_, ?_, ?_, ?_, ?_⟩ <;> rintro rfl <;> cases hdigit

theorem partsText_cons (close : Char) (part next : List Char) (parts : List (List Char)) :
    partsText close (part :: next :: parts) = part ++ ',' :: partsText close (next :: parts) := rfl

theorem head_partsText (close : Char) (j : Json) (parts : List (List Char)) :
    ∃ c s, partsText close ((write j).toList :: parts) = c :: s ∧ isSpace c = false ∧ c ≠ ']' := by
  obtain ⟨c, s, htext, hc⟩ := head_write j
  rw [htext]
  cases parts with
  | nil => exact ⟨c, s ++ [close], rfl, hc⟩
  | cons next parts => exact ⟨c, s ++ ',' :: partsText close (next :: parts), rfl, hc⟩

theorem length_fieldText (f : String × Json) : (fieldText f).length =
    (f.1.toList.flatMap escapeChar).length + (write f.2).toList.length + 3 := by
  simp only [fieldText, List.length_cons, List.length_append]
  omega

/-- A key is read back. -/
theorem readFields_key (fuel limit : Nat) (key : String) (j : Json) (rest : List Char) :
    readFields (fuel + 1) limit (fieldText (key, j) ++ rest) =
      match readValue fuel limit ((write j).toList ++ rest) with
      | none => none
      | some (j, s) =>
        match skipSpace s with
        | [] => none
        | c :: s =>
          if c = ',' then
            (readFields fuel limit s).map fun r => ((String.ofList key.toList, j) :: r.1, r.2)
          else if c = '\x7d' then some ([(String.ofList key.toList, j)], s)
          else none := by
  have hlength : key.toList.length ≤ ((key, j).1.toList.flatMap escapeChar).length :=
    length_escaped key.toList
  rw [fieldText, List.cons_append, List.append_assoc, List.cons_append, List.cons_append,
    readFields, skipSpace_cons (by decide), List.head?_cons, if_pos rfl, List.tail_cons,
    readChars_escaped key.toList _ (by rw [List.length_cons, List.length_append]; omega)]
  dsimp only
  rw [skipSpace_cons (by decide), List.head?_cons, if_pos rfl, List.tail_cons]

theorem extends_close {close : Char} (h : extendsNumber close = false) (rest : List Char) :
    (close :: rest).head?.any extendsNumber = false := h

mutual

/-- The text of a readable value is read back, whatever follows it. -/
theorem readValue_write : ∀ (j : Json) {limit fuel : Nat} {rest : List Char},
    readable limit j = true → (write j).toList.length ≤ fuel →
    rest.head?.any extendsNumber = false →
    readValue fuel limit ((write j).toList ++ rest) = some (j, rest)
  | _, _, 0, _, _, hfuel, _ => absurd hfuel (by
    obtain ⟨c, s, htext, -⟩ := head_write _
    rw [htext]
    exact Nat.not_succ_le_zero _)
  | .null, _, _ + 1, _, _, _, _ => rfl
  | .bool b, _, _ + 1, _, _, _, _ => by
    cases b <;> rfl
  | .number n, limit, fuel + 1, rest, hj, _, hrest => by
    obtain ⟨c, s, htext, hc⟩ := head_int n
    have hread := readNumber_write hj hrest
    have hspace := numeral_head hc
    rw [write]
    rw [htext] at hread ⊢
    rw [List.cons_append] at hread ⊢
    rw [readValue, skipSpace_cons hspace.1]
    dsimp only
    rw [if_neg hspace.2.1, if_neg hspace.2.2.1, if_neg hspace.2.2.2.1, if_neg hspace.2.2.2.2.1,
      if_neg hspace.2.2.2.2.2.1, if_neg hspace.2.2.2.2.2.2, hread]
    rfl
  | .string s, limit, fuel + 1, rest, _, _, _ => by
    have hlength := length_escaped s.toList
    rw [writeText_string, List.cons_append, readValue, skipSpace_cons (by decide),
      List.append_assoc, List.singleton_append]
    dsimp only
    rw [if_pos rfl, readChars_escaped s.toList rest (by rw [List.length_append]; omega)]
    simp
  | .array items, limit, fuel + 1, rest, hj, hfuel, _ => by
    rw [readable, Bool.and_eq_true, decide_eq_true_eq] at hj
    rw [writeText_array, List.length_cons] at hfuel
    rw [writeText_array, List.cons_append, readValue, skipSpace_cons (by decide)]
    dsimp only
    rw [if_neg (by decide), if_pos rfl, if_neg (Nat.ne_of_gt hj.1)]
    cases items with
    | nil => rfl
    | cons j items =>
      have hread := @readItems_write (j :: items) (limit - 1) fuel rest
        (List.cons_ne_nil _ _) hj.2 (Nat.le_of_succ_le_succ hfuel)
      obtain ⟨c, s, htext, hspace, hc⟩ := head_partsText ']' j (items.map fun j => (write j).toList)
      have hopen : (skipSpace (partsText ']' ((j :: items).map fun j => (write j).toList) ++
          rest)).head? ≠ some ']' := by
        rw [List.map_cons, htext, List.cons_append, skipSpace_cons hspace]
        exact fun h => hc (Option.some.inj h)
      rw [hread, if_neg hopen]
      rfl
  | .object fields, limit, fuel + 1, rest, hj, hfuel, hrest => by
    rw [readable, Bool.and_eq_true, decide_eq_true_eq] at hj
    rw [writeText_object, List.length_cons] at hfuel
    rw [writeText_object, List.cons_append, readValue, skipSpace_cons (by decide)]
    dsimp only
    rw [if_neg (by decide), if_neg (by decide), if_pos rfl, if_neg (Nat.ne_of_gt hj.1)]
    cases fields with
    | nil => rfl
    | cons f fields =>
      have hread := @readFields_write (f :: fields) (limit - 1) fuel rest
        (List.cons_ne_nil _ _) hj.2 (Nat.le_of_succ_le_succ hfuel)
      have hopen : (skipSpace (partsText '\x7d' ((f :: fields).map fieldText) ++ rest)).head? ≠
          some '\x7d' := by
        cases fields <;> exact fun h => by cases h
      rw [hread, if_neg hopen]
      rfl

theorem readItems_write : ∀ (items : List Json) {limit fuel : Nat} {rest : List Char},
    items ≠ [] → readableItems limit items = true →
    (partsText ']' (items.map fun j => (write j).toList)).length ≤ fuel →
    readItems fuel limit (partsText ']' (items.map fun j => (write j).toList) ++ rest) =
      some (items, rest)
  | [], _, _, _, hne, _, _ => absurd rfl hne
  | [j], limit, 0, rest, _, hj, hfuel => by
    simp [partsText] at hfuel
  | [j], limit, fuel + 1, rest, _, hj, hfuel => by
    rw [readableItems, Bool.and_eq_true] at hj
    rw [List.map_singleton, partsText, List.length_append, List.length_singleton] at hfuel
    rw [List.map_singleton, partsText, List.append_assoc, List.singleton_append, readItems,
      readValue_write j hj.1 (Nat.le_of_succ_le_succ hfuel) (extends_close (by decide) rest)]
    dsimp only
    rw [skipSpace_cons (by decide)]
    dsimp only
    rw [if_neg (by decide), if_pos rfl]
  | j :: k :: items, limit, 0, rest, _, hj, hfuel => by
    simp [partsText] at hfuel
  | j :: k :: items, limit, fuel + 1, rest, _, hj, hfuel => by
    rw [readableItems, Bool.and_eq_true] at hj
    have hread := @readItems_write (k :: items) limit fuel rest
      (List.cons_ne_nil _ _) hj.2
    rw [List.map_cons] at hfuel hread ⊢
    rw [List.map_cons, partsText_cons, List.length_append, List.length_cons] at hfuel
    rw [List.map_cons, partsText_cons, List.append_assoc, List.cons_append, readItems,
      readValue_write j hj.1 (by omega) (extends_close (by decide) _)]
    dsimp only
    rw [skipSpace_cons (by decide)]
    dsimp only
    rw [if_pos rfl, hread (by omega)]
    rfl

theorem readFields_write : ∀ (fields : List (String × Json)) {limit fuel : Nat}
    {rest : List Char}, fields ≠ [] → readableFields limit fields = true →
    (partsText '\x7d' (fields.map fieldText)).length ≤ fuel →
    readFields fuel limit (partsText '\x7d' (fields.map fieldText) ++ rest) =
      some (fields, rest)
  | [], _, _, _, hne, _, _ => absurd rfl hne
  | [(key, j)], limit, 0, rest, _, hj, hfuel => by
    simp [partsText] at hfuel
  | [(key, j)], limit, fuel + 1, rest, _, hj, hfuel => by
    rw [readableFields, Bool.and_eq_true] at hj
    rw [List.map_singleton, partsText, List.length_append, length_fieldText] at hfuel
    change _ + (write j).toList.length + 3 + _ ≤ _ at hfuel
    rw [List.map_singleton, partsText, List.append_assoc, List.singleton_append, readFields_key,
      readValue_write j hj.1 (by omega) (extends_close (by decide) rest)]
    dsimp only
    rw [skipSpace_cons (by decide)]
    dsimp only
    rw [if_neg (by decide), if_pos rfl, String.ofList_toList]
  | (key, j) :: g :: fields, limit, 0, rest, _, hj, hfuel => by
    simp [partsText] at hfuel
  | (key, j) :: g :: fields, limit, fuel + 1, rest, _, hj, hfuel => by
    rw [readableFields, Bool.and_eq_true] at hj
    have hread := @readFields_write (g :: fields) limit fuel rest
      (List.cons_ne_nil _ _) hj.2
    rw [List.map_cons] at hfuel hread ⊢
    rw [List.map_cons, partsText_cons, List.length_append, List.length_cons,
      length_fieldText] at hfuel
    change _ + (write j).toList.length + 3 + _ ≤ _ at hfuel
    rw [List.map_cons, partsText_cons, List.append_assoc, List.cons_append, readFields_key,
      readValue_write j hj.1 (by omega) (extends_close (by decide) _)]
    dsimp only
    rw [skipSpace_cons (by decide)]
    dsimp only
    rw [if_pos rfl, hread (by omega), String.ofList_toList]
    rfl

end

theorem read_write {limit : Nat} {j : Json} (h : readable limit j = true) :
    read limit (write j) = some j := by
  have hread := @readValue_write j limit ((write j).toList.length + 1) [] h (Nat.le_succ _) rfl
  rw [List.append_nil] at hread
  rw [read, hread]
  rfl

end Core.Json
