import Mathlib.Logic.Function.Basic

/-!
# Unpadded URL-safe base64

Three bytes are four digits; one byte left over is two digits, two are three.

* `Base64.encode_length`: what an encoding takes.
* `Base64.encode_injective`: no two byte strings have one encoding.
-/
namespace Core.Base64

/-- The digits `A-Z`, `a-z`, `0-9`, `-` and `_`. -/
def digit (n : Nat) : Char :=
  if n < 26 then Char.ofNat (65 + n)
  else if n < 52 then Char.ofNat (71 + n)
  else if n < 62 then Char.ofNat (n - 4)
  else if n = 62 then '-'
  else '_'

/-- The six bits a digit stands for. -/
def digitValue (c : Char) : Nat :=
  if c = '-' then 62
  else if c = '_' then 63
  else if c.toNat < 58 then c.toNat + 4
  else if c.toNat < 91 then c.toNat - 65
  else c.toNat - 71

theorem digitValue_digit : ∀ n < 64, digitValue (digit n) = n := by
  decide

/-- Six bits at a time, the last ones filled up with zeros. -/
def sextets : List UInt8 → List Nat
  | [] => []
  | [a] => [a.toNat / 4, a.toNat % 4 * 16]
  | [a, b] => [a.toNat / 4, a.toNat % 4 * 16 + b.toNat / 16, b.toNat % 16 * 4]
  | a :: b :: c :: rest =>
    a.toNat / 4 :: (a.toNat % 4 * 16 + b.toNat / 16) :: (b.toNat % 16 * 4 + c.toNat / 64) ::
      c.toNat % 64 :: sextets rest

/-- Eight bits at a time, what is left over dropped. -/
def octets : List Nat → List UInt8
  | p :: q :: r :: s :: rest =>
    UInt8.ofNat (p * 4 + q / 16) :: UInt8.ofNat (q % 16 * 16 + r / 4) ::
      UInt8.ofNat (r % 4 * 64 + s) :: octets rest
  | [p, q, r] => [UInt8.ofNat (p * 4 + q / 16), UInt8.ofNat (q % 16 * 16 + r / 4)]
  | [p, q] => [UInt8.ofNat (p * 4 + q / 16)]
  | _ => []

def encode (bytes : List UInt8) : String := String.ofList ((sextets bytes).map digit)

theorem sextets_lt (bytes : List UInt8) : ∀ n ∈ sextets bytes, n < 64 := by
  induction bytes using sextets.induct with
  | case1 => simp [sextets]
  | case2 a =>
    have := a.toNat_lt
    simp only [sextets, List.mem_cons, List.not_mem_nil, or_false]
    omega
  | case3 a b =>
    have := a.toNat_lt
    have := b.toNat_lt
    simp only [sextets, List.mem_cons, List.not_mem_nil, or_false]
    omega
  | case4 a b c rest ih =>
    have := a.toNat_lt
    have := b.toNat_lt
    have := c.toNat_lt
    intro n hn
    simp only [sextets, List.mem_cons] at hn
    rcases hn with rfl | rfl | rfl | rfl | hn
    · omega
    · omega
    · omega
    · omega
    · exact ih n hn

theorem sextets_length (bytes : List UInt8) :
    (sextets bytes).length = (4 * bytes.length + 2) / 3 := by
  induction bytes using sextets.induct with
  | case1 | case2 | case3 => simp [sextets]
  | case4 a b c rest ih =>
    simp only [sextets, List.length_cons, ih]
    omega

theorem octets_sextets (bytes : List UInt8) : octets (sextets bytes) = bytes := by
  -- the bits of a byte that a digit splits are put together again
  have hbyte : ∀ (x : UInt8) (n : Nat), n = x.toNat → UInt8.ofNat n = x := fun x n hn => by
    rw [hn, UInt8.ofNat_toNat]
  induction bytes using sextets.induct with
  | case1 => rfl
  | case2 a =>
    simp only [sextets, octets]
    rw [hbyte a _ (by omega)]
  | case3 a b =>
    have := b.toNat_lt
    simp only [sextets, octets]
    rw [hbyte a _ (by omega), hbyte b _ (by omega)]
  | case4 a b c rest ih =>
    have := b.toNat_lt
    have := c.toNat_lt
    simp only [sextets, octets, ih]
    rw [hbyte a _ (by omega), hbyte b _ (by omega), hbyte c _ (by omega)]

theorem encode_length (bytes : List UInt8) :
    (encode bytes).length = (4 * bytes.length + 2) / 3 := by
  rw [encode, String.length_ofList, List.length_map, sextets_length]

theorem encode_injective : Function.Injective encode := by
  intro x y h
  have hdigits : (sextets x).map digit = (sextets y).map digit := String.ofList_injective h
  have hback : ∀ z, ((sextets z).map digit).map digitValue = sextets z := fun z => by
    rw [List.map_map]
    refine (List.map_congr_left fun n hn => ?_).trans (List.map_id _)
    exact digitValue_digit n (sextets_lt z n hn)
  have hsextets : sextets x = sextets y := by rw [← hback x, hdigits, hback y]
  rw [← octets_sextets x, hsextets, octets_sextets y]

end Core.Base64
