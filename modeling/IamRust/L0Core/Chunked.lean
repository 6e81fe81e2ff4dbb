import Mathlib.Algebra.Ring.Nat
import Mathlib.Data.List.Basic

/-!
# Length-prefixed chunks

Bytes cut into chunks, each behind its length in four bytes, big-endian, and
closed by a length of zero. `readChunked_writeChunked`: a reader that goes by
the lengths gets the bytes back, and leaves what follows.
-/
namespace Core.Chunked

/-- `n.to_be_bytes()` of a `u32`. -/
def lengthBytes (n : Nat) : List UInt8 :=
  [UInt8.ofNat (n / 2 ^ 24), UInt8.ofNat (n / 2 ^ 16), UInt8.ofNat (n / 2 ^ 8), UInt8.ofNat n]

/-- The number in front, and what follows. -/
def readLength : List UInt8 → Option (Nat × List UInt8)
  | a :: b :: c :: d :: rest =>
    some (a.toNat * 2 ^ 24 + b.toNat * 2 ^ 16 + c.toNat * 2 ^ 8 + d.toNat, rest)
  | _ => none

theorem readLength_lengthBytes {n : Nat} (h : n < 2 ^ 32) (rest : List UInt8) :
    readLength (lengthBytes n ++ rest) = some (n, rest) := by
  have hn : n / 2 ^ 24 % 2 ^ 8 * 2 ^ 24 + n / 2 ^ 16 % 2 ^ 8 * 2 ^ 16 +
      n / 2 ^ 8 % 2 ^ 8 * 2 ^ 8 + n % 2 ^ 8 = n := by omega
  simp only [lengthBytes, List.cons_append, List.nil_append, readLength, UInt8.toNat_ofNat', hn]

section
variable {α : Type}

/-- The chunks of the list, `size` long but for the last one; `fuel` bounds their number. -/
def chunksFrom (size : Nat) : Nat → List α → List (List α)
  | 0, _ => []
  | fuel + 1, l => if l.isEmpty then [] else l.take size :: chunksFrom size fuel (l.drop size)

/-- `l.chunks(size)`. -/
def chunks (size : Nat) (l : List α) : List (List α) := chunksFrom size l.length l

theorem chunksFrom_spec {size : Nat} (hsize : 0 < size) {fuel : Nat} {l : List α}
    (hfuel : l.length ≤ fuel) : (chunksFrom size fuel l).flatten = l ∧
      ∀ c ∈ chunksFrom size fuel l, c ≠ [] ∧ c.length ≤ size := by
  induction fuel generalizing l with
  | zero =>
    have hnil : l = [] := List.length_eq_zero_iff.mp (Nat.le_zero.mp hfuel)
    rw [hnil]
    exact ⟨rfl, fun c hc => absurd hc List.not_mem_nil⟩
  | succ fuel ih =>
    unfold chunksFrom
    cases l with
    | nil => exact ⟨rfl, fun c hc => absurd hc List.not_mem_nil⟩
    | cons a l =>
      have hdrop : ((a :: l).drop size).length ≤ fuel := by
        rw [List.length_drop, List.length_cons] at *
        omega
      obtain ⟨hflat, hall⟩ := ih hdrop
      rw [List.isEmpty_cons, if_neg Bool.false_ne_true]
      refine ⟨by rw [List.flatten_cons, hflat, List.take_append_drop], ?_⟩
      intro c hc
      rcases List.mem_cons.mp hc with rfl | hc
      · refine ⟨?_, List.length_take_le ..⟩
        rw [ne_eq, List.take_eq_nil_iff]
        rintro (h | h)
        · omega
        · cases h
      · exact hall c hc

/-- The chunks are the list, none is empty and none longer than `size`. -/
theorem chunks_spec {size : Nat} (hsize : 0 < size) (l : List α) :
    (chunks size l).flatten = l ∧ ∀ c ∈ chunks size l, c ≠ [] ∧ c.length ≤ size :=
  chunksFrom_spec hsize (Nat.le_refl _)

end

/-- A chunk behind its length. -/
def writeChunk (chunk : List UInt8) : List UInt8 := lengthBytes chunk.length ++ chunk

/-- Chunk by chunk, until the length is zero; `fuel` bounds the number of chunks. -/
def readChunked : Nat → List UInt8 → Option (List UInt8 × List UInt8)
  | 0, _ => none
  | fuel + 1, stream =>
    match readLength stream with
    | none => none
    | some (0, rest) => some ([], rest)
    | some (n + 1, rest) =>
      if rest.length < n + 1 then none
      else (readChunked fuel (rest.drop (n + 1))).map fun r => (rest.take (n + 1) ++ r.1, r.2)

/-- **What is written in chunks is read.** -/
theorem readChunked_writeChunked {cs : List (List UInt8)}
    (hcs : ∀ c ∈ cs, c ≠ [] ∧ c.length < 2 ^ 32) {fuel : Nat} (hfuel : cs.length < fuel)
    (rest : List UInt8) :
    readChunked fuel (cs.flatMap writeChunk ++ lengthBytes 0 ++ rest) =
      some (cs.flatten, rest) := by
  induction cs generalizing fuel with
  | nil =>
    cases fuel with
    | zero => cases hfuel
    | succ fuel =>
      rw [List.flatMap_nil, List.nil_append, readChunked, readLength_lengthBytes (by decide)]
      rfl
  | cons c cs ih =>
    cases fuel with
    | zero => cases hfuel
    | succ fuel =>
      obtain ⟨hne, hlen⟩ := hcs c List.mem_cons_self
      obtain ⟨n, hn⟩ : ∃ n, c.length = n + 1 :=
        ⟨c.length - 1, by have := List.length_pos_iff.mpr hne; omega⟩
      have hfirst : (c :: cs).flatMap writeChunk ++ lengthBytes 0 ++ rest =
          lengthBytes c.length ++ (c ++ (cs.flatMap writeChunk ++ lengthBytes 0 ++ rest)) := by
        simp [writeChunk, List.append_assoc]
      rw [hfirst, readChunked, readLength_lengthBytes hlen, hn]
      dsimp only
      rw [← hn, if_neg (by rw [List.length_append]; omega), List.drop_left, List.take_left,
        ih (fun d hd => hcs d (List.mem_cons_of_mem c hd)) (Nat.lt_of_succ_lt_succ hfuel)]
      rfl

/-- Fuel for every byte is enough. -/
theorem readChunked_enough {fuel fuel' : Nat} {stream : List UInt8} {r : List UInt8 × List UInt8}
    (h : readChunked fuel stream = some r) (hfuel : stream.length < fuel') :
    readChunked fuel' stream = some r := by
  induction fuel generalizing stream fuel' r with
  | zero => cases h
  | succ fuel ih =>
    cases fuel' with
    | zero => cases hfuel
    | succ fuel' =>
      unfold readChunked at h ⊢
      split at h
      · cases h
      · exact h
      · rename_i n rest hlength
        split at h
        · cases h
        · rename_i hlong
          obtain ⟨r', hr', rfl⟩ := Option.map_eq_some_iff.mp h
          have hshorter : rest.length < stream.length := by
            unfold readLength at hlength
            split at hlength
            · have hrest := (Prod.mk.inj (Option.some.inj hlength)).2
              rw [← hrest]
              simp only [List.length_cons]
              omega
            · cases hlength
          rw [if_neg hlong, ih hr' (by rw [List.length_drop]; omega)]
          rfl

end Core.Chunked
