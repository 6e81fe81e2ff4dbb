import Mathlib.Algebra.Ring.Nat
import Mathlib.Logic.Function.Basic

/-!
# Text

The parts of the standard string library the service uses: `trim` over the
Unicode `White_Space` characters, `to_ascii_lowercase`, hexadecimal output.
A length is the number of characters (`chars().count()`), `byteLen` the UTF-8
length (`len()`).
-/
namespace Core.Text

/-- Unicode `White_Space` (`char::is_whitespace`). -/
def isWhitespace (c : Char) : Bool :=
  let n := c.toNat
  (0x9 ≤ n && n ≤ 0xD) || n == 0x20 || n == 0x85 || n == 0xA0 || n == 0x1680 ||
    (0x2000 ≤ n && n ≤ 0x200A) || n == 0x2028 || n == 0x2029 || n == 0x202F || n == 0x205F ||
    n == 0x3000

/-- `str::trim`. -/
def trim (s : String) : String :=
  String.ofList ((s.toList.dropWhile isWhitespace).reverse.dropWhile isWhitespace).reverse

/-- `s.trim().is_empty()`. -/
def isBlank (s : String) : Bool := s.toList.all isWhitespace

/-- `s.starts_with(p)`. -/
def startsWith (s p : String) : Bool := p.toList.isPrefixOf s.toList

/-- `char::to_ascii_lowercase`. -/
def lowerChar (c : Char) : Char :=
  if 'A'.toNat ≤ c.toNat ∧ c.toNat ≤ 'Z'.toNat then Char.ofNat (c.toNat + 32) else c

/-- `str::to_ascii_lowercase`. -/
def toAsciiLowercase (s : String) : String := String.ofList (s.toList.map lowerChar)

def byteLen (s : String) : Nat := s.utf8ByteSize

/-- `str::as_bytes`: UTF-8. -/
def bytes (s : String) : List UInt8 := s.toList.flatMap String.utf8EncodeChar

theorem toByteArray_bytes (s : String) : (bytes s).toByteArray = s.toByteArray := by
  conv => rhs; rw [← String.ofList_toList (s := s)]
  rfl

theorem bytes_injective : Function.Injective bytes := by
  intro s t h
  rw [← String.toByteArray_inj, ← toByteArray_bytes, ← toByteArray_bytes, h]

theorem length_bytes (s : String) : (bytes s).length = byteLen s := by
  rw [← List.size_toByteArray, toByteArray_bytes]
  rfl

/-- A character takes a byte at least. -/
theorem length_le_byteLen (s : String) : s.toList.length ≤ byteLen s := by
  rw [← length_bytes, bytes]
  induction s.toList with
  | nil => simp
  | cons c l ih =>
    have hc := c.utf8Size_pos
    rw [List.flatMap_cons, List.length_append, String.length_utf8EncodeChar, List.length_cons]
    omega

/-- A character takes four bytes at most. -/
theorem byteLen_le (s : String) : byteLen s ≤ 4 * s.toList.length := by
  rw [← length_bytes, bytes]
  induction s.toList with
  | nil => exact Nat.le_refl 0
  | cons c l ih =>
    have hc := c.utf8Size_le_four
    rw [List.flatMap_cons, List.length_append, String.length_utf8EncodeChar, List.length_cons]
    omega

def isAsciiDigit (c : Char) : Bool := '0'.toNat ≤ c.toNat && c.toNat ≤ '9'.toNat

def isAsciiLower (c : Char) : Bool := 'a'.toNat ≤ c.toNat && c.toNat ≤ 'z'.toNat

def isAsciiUpper (c : Char) : Bool := 'A'.toNat ≤ c.toNat && c.toNat ≤ 'Z'.toNat

def isAsciiAlphanumeric (c : Char) : Bool := isAsciiDigit c || isAsciiLower c || isAsciiUpper c

def isAsciiHexdigit (c : Char) : Bool :=
  isAsciiDigit c || ('a'.toNat ≤ c.toNat && c.toNat ≤ 'f'.toNat) ||
    ('A'.toNat ≤ c.toNat && c.toNat ≤ 'F'.toNat)

/-- The lower-case hexadecimal digit of `n % 16`. -/
def hexDigit (n : Nat) : Char :=
  let d := n % 16
  if d < 10 then Char.ofNat ('0'.toNat + d) else Char.ofNat ('a'.toNat + d - 10)

theorem hexDigit_inj {m n : Nat} (h : hexDigit m = hexDigit n) : m % 16 = n % 16 := by
  have hdigits : ∀ a b : Fin 16, hexDigit a.val = hexDigit b.val → a = b := by decide
  have hm : hexDigit (m % 16) = hexDigit m := by simp [hexDigit]
  have hn : hexDigit (n % 16) = hexDigit n := by simp [hexDigit]
  have := hdigits ⟨m % 16, Nat.mod_lt _ (by decide)⟩ ⟨n % 16, Nat.mod_lt _ (by decide)⟩
    (by rw [hm, hn, h])
  exact congrArg Fin.val this

/-- The last `width` hexadecimal digits of `n`, most significant first. -/
def hexDigits : Nat → Nat → List Char
  | 0, _ => []
  | width + 1, n => hexDigits width (n / 16) ++ [hexDigit n]

@[simp] theorem length_hexDigits (width n : Nat) : (hexDigits width n).length = width := by
  induction width generalizing n with
  | zero => rfl
  | succ width ih => simp [hexDigits, ih]

/-- Numbers below `16 ^ width` are told apart by their digits. -/
theorem hexDigits_inj {width m n : Nat} (hm : m < 16 ^ width) (hn : n < 16 ^ width)
    (h : hexDigits width m = hexDigits width n) : m = n := by
  induction width generalizing m n with
  | zero => omega
  | succ width ih =>
    obtain ⟨hhigh, hlow⟩ := List.append_inj' h rfl
    have hdigit := hexDigit_inj (List.cons.inj hlow).1
    have hrest := ih (by omega) (by omega) hhigh
    omega

/-- Two digits a byte. -/
def toHex (bytes : List UInt8) : String :=
  String.ofList (bytes.flatMap fun b => hexDigits 2 b.toNat)

theorem toHex_injective : Function.Injective toHex := by
  intro l l' h
  replace h := String.ofList_injective h
  induction l generalizing l' with
  | nil =>
    cases l' with
    | nil => rfl
    | cons b' l' => simp [hexDigits] at h
  | cons b l ih =>
    cases l' with
    | nil => simp [hexDigits] at h
    | cons b' l' =>
      simp only [List.flatMap_cons, hexDigits, List.nil_append, List.cons_append,
        List.cons.injEq] at h
      obtain ⟨hhigh, hlow, hrest⟩ := h
      have h₁ := hexDigit_inj hhigh
      have h₂ := hexDigit_inj hlow
      have hb := b.toNat_lt
      have hb' := b'.toNat_lt
      rw [UInt8.toNat_inj.mp (by omega : b.toNat = b'.toNat), ih hrest]

/-- `parts.join(separator)`. -/
def join (separator : String) : List String → String
  | [] => ""
  | [s] => s
  | s :: rest => s ++ separator ++ join separator rest

/-- `s.split(sep)`: the pieces between the separators. -/
def split (sep : Char) : List Char → List (List Char)
  | [] => [[]]
  | c :: cs =>
    match split sep cs with
    | [] => [[c]]
    | piece :: rest => if c = sep then [] :: piece :: rest else (c :: piece) :: rest

theorem split_ne_nil (sep : Char) (l : List Char) : split sep l ≠ [] := by
  cases l with
  | nil => exact nofun
  | cons c l =>
    unfold split
    split
    · exact nofun
    · split <;> exact nofun

/-- The text in front of the first separator is the first piece. -/
theorem split_append {sep : Char} {l r : List Char} (h : sep ∉ l) :
    split sep (l ++ sep :: r) = l :: split sep r := by
  induction l with
  | nil =>
    rw [List.nil_append, split]
    split
    · exact absurd ‹_› (split_ne_nil sep r)
    · rename_i piece rest heq
      rw [if_pos rfl, heq]
  | cons c l ih =>
    rw [List.mem_cons, not_or] at h
    rw [List.cons_append, split, ih h.2]
    exact if_neg (Ne.symm h.1)

end Core.Text
