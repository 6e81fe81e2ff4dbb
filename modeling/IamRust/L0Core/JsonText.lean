import IamRust.L0Core.Json
import IamRust.L0Core.Text

/-!
# JSON texts

The text a JSON value is written as, with nothing between its parts, and how many
bytes of UTF-8 it takes: `size` with an equation for each kind of value.
-/
namespace Core.Json

/-! ## Strings -/

/-- A quotation mark, a backslash and the control characters are escaped. -/
def escapeChar (c : Char) : List Char :=
  match c.toNat with
  | 0x22 => ['\x5c', '\x22']
  | 0x5C => ['\x5c', '\x5c']
  | 0x08 => ['\x5c', 'b']
  | 0x09 => ['\x5c', 't']
  | 0x0A => ['\x5c', 'n']
  | 0x0C => ['\x5c', 'f']
  | 0x0D => ['\x5c', 'r']
  | n =>
    if n < 0x20 then ['\x5c', 'u', '0', '0', Nat.digitChar (n / 16), Nat.digitChar (n % 16)]
    else [c]

def quote (s : String) : String :=
  "\x22" ++ String.ofList (s.toList.flatMap escapeChar) ++ "\x22"

/-- The bytes of a character as it is written. -/
def escapedCharLen (c : Char) : Nat := ((escapeChar c).map Char.utf8Size).sum

/-- The bytes of a text as it is written, less the quotation marks. -/
def escapedLen (s : String) : Nat := (s.toList.map escapedCharLen).sum

theorem escapedCharLen_le (c : Char) : escapedCharLen c ≤ 6 := by
  have hdigit : ∀ k < 16, (Nat.digitChar k).utf8Size = 1 := by decide
  have hc := c.utf8Size_le_four
  unfold escapedCharLen escapeChar
  split
  case h_8 =>
    split
    · next hlt =>
      rw [List.map_cons, List.map_cons, List.map_cons, List.map_cons, List.map_cons,
        List.map_singleton, hdigit _ (by omega), hdigit _ (by omega)]
      decide
    · rw [List.map_singleton, List.sum_singleton]
      omega
  all_goals decide

theorem escapedLen_le (s : String) : escapedLen s ≤ 6 * s.length := by
  rw [escapedLen, ← String.length_toList]
  induction s.toList with
  | nil => exact Nat.le_refl 0
  | cons c l ih =>
    have hc := escapedCharLen_le c
    rw [List.map_cons, List.sum_cons, List.length_cons]
    omega

/-- The characters that are written as they are, in one byte. -/
def plain (c : Char) : Bool :=
  decide (0x20 ≤ c.toNat) && (decide (c.toNat < 0x80) && (c.toNat != 0x22 && c.toNat != 0x5C))

theorem escapedCharLen_plain {c : Char} (h : plain c = true) : escapedCharLen c = 1 := by
  simp only [plain, Bool.and_eq_true, decide_eq_true_eq, bne_iff_ne] at h
  have hsize : c.utf8Size = 1 :=
    Char.utf8Size_eq_one_iff.mpr (UInt32.le_iff_toNat_le.mpr (Nat.le_of_lt_succ h.2.1))
  unfold escapedCharLen escapeChar
  split
  case h_8 => rw [if_neg (by omega), List.map_singleton, hsize, List.sum_singleton]
  all_goals omega

theorem escapedLen_plain {s : String} (h : s.toList.all plain = true) :
    escapedLen s = s.toList.length := by
  rw [escapedLen]
  have hone : s.toList.map escapedCharLen = s.toList.map fun _ => 1 :=
    List.map_congr_left fun c hc => escapedCharLen_plain (List.all_eq_true.mp h c hc)
  rw [hone, List.map_const', List.sum_replicate_nat, Nat.mul_one]

theorem escapedLen_replicate (n : Nat) {c : Char} (h : escapedCharLen c = 1) :
    escapedLen (String.ofList (List.replicate n c)) = n := by
  rw [escapedLen, String.toList_ofList, List.map_replicate, h, List.sum_replicate_nat,
    Nat.mul_one]

theorem byteLen_eq (s : String) : Text.byteLen s = (s.toList.map Char.utf8Size).sum := by
  rw [← Text.length_bytes, Text.bytes, List.length_flatMap]
  simp only [String.length_utf8EncodeChar]

theorem byteLen_replicate (n : Nat) {c : Char} (h : c.utf8Size = 1) :
    Text.byteLen (String.ofList (List.replicate n c)) = n := by
  rw [byteLen_eq, String.toList_ofList, List.map_replicate, h, List.sum_replicate_nat, Nat.mul_one]

theorem byteLen_append (s t : String) : Text.byteLen (s ++ t) = Text.byteLen s + Text.byteLen t :=
  String.utf8ByteSize_append

theorem byteLen_quote (s : String) : Text.byteLen (quote s) = escapedLen s + 2 := by
  have hquote : Text.byteLen "\x22" = 1 := by decide
  rw [quote, byteLen_append, byteLen_append, hquote, byteLen_eq, String.toList_ofList, escapedLen]
  have hchars : ((s.toList.flatMap escapeChar).map Char.utf8Size).sum =
      (s.toList.map escapedCharLen).sum := by
    induction s.toList with
    | nil => rfl
    | cons c l ih =>
      rw [List.flatMap_cons, List.map_append, List.sum_append, ih, List.map_cons, List.sum_cons]
      rfl
  omega

/-! ## Values -/

mutual

def write : Json → String
  | .null => "null"
  | .bool true => "true"
  | .bool false => "false"
  | .number n => toString n
  | .string s => quote s
  | .array items => "[" ++ Text.join "," (writeItems items) ++ "]"
  | .object fields => "\x7b" ++ Text.join "," (writeFields fields) ++ "\x7d"

def writeItems : List Json → List String
  | [] => []
  | j :: items => write j :: writeItems items

def writeFields : List (String × Json) → List String
  | [] => []
  | (k, j) :: fields => (quote k ++ ":" ++ write j) :: writeFields fields

end

/-- The bytes a value is written in. -/
def size (j : Json) : Nat := Text.byteLen j.write

@[simp] theorem size_null : size .null = 4 := by decide

theorem size_bool (b : Bool) : size (.bool b) = if b then 4 else 5 := by
  cases b <;> decide

theorem size_string (s : String) : size (.string s) = escapedLen s + 2 := byteLen_quote s

theorem byteLen_join (l : List String) :
    Text.byteLen (Text.join "," l) = (l.map Text.byteLen).sum + (l.length - 1) := by
  have hcomma : Text.byteLen "," = 1 := by decide
  induction l with
  | nil => decide
  | cons s l ih =>
    cases l with
    | nil => simp [Text.join]
    | cons t l =>
      rw [Text.join, byteLen_append, byteLen_append, hcomma, ih]
      · simp
        omega
      · simp

theorem writeItems_eq (items : List Json) : writeItems items = items.map write := by
  induction items with
  | nil => rfl
  | cons j items ih => rw [writeItems, ih, List.map_cons]

theorem writeFields_eq (fields : List (String × Json)) :
    writeFields fields = fields.map fun f => quote f.1 ++ ":" ++ write f.2 := by
  induction fields with
  | nil => rfl
  | cons f fields ih => rw [writeFields, ih, List.map_cons]

theorem size_array (items : List Json) :
    size (.array items) = (items.map size).sum + (items.length - 1) + 2 := by
  have hopen : Text.byteLen "[" = 1 ∧ Text.byteLen "]" = 1 := by decide
  rw [size, write, byteLen_append, byteLen_append, hopen.1, hopen.2, writeItems_eq, byteLen_join,
    List.length_map, List.map_map]
  change 1 + ((items.map size).sum + (items.length - 1)) + 1 = _
  omega

@[simp] theorem size_object (fields : List (String × Json)) : size (.object fields) =
    (fields.map fun f => escapedLen f.1 + 3 + f.2.size).sum + (fields.length - 1) + 2 := by
  have hopen : Text.byteLen "\x7b" = 1 ∧ Text.byteLen "\x7d" = 1 ∧ Text.byteLen ":" = 1 := by
    decide
  have hfield : Text.byteLen ∘ (fun f : String × Json => quote f.1 ++ ":" ++ write f.2) =
      fun f => escapedLen f.1 + 3 + f.2.size := by
    funext f
    simp only [Function.comp, byteLen_append, byteLen_quote, hopen.2.2, size]
  rw [size, write, byteLen_append, byteLen_append, hopen.1, hopen.2.1, writeFields_eq, byteLen_join,
    List.length_map, List.map_map, hfield]
  omega

end Core.Json
