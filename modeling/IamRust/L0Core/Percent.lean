import Mathlib.Data.List.Basic
import IamRust.L0Core.Text

/-!
# Percent-encoding

A text is encoded byte by byte: the unreserved characters of RFC 3986 stand for
themselves, any other byte for `%` and two upper-case hexadecimal digits.

* `decode_encode`, `decode_encodePath`: what is encoded is read back, with the
  slashes left as they are too.
* `split_join`, `split_lines`: what is put together is taken apart again.
* `query_injective`: a query determines its pairs.
-/
namespace Core.Percent

/-! ## Bytes -/

/-- Letters, digits and `-`, `_`, `.`, `~`. -/
def unreserved (b : UInt8) : Bool :=
  Text.isAsciiAlphanumeric (Char.ofNat b.toNat) || b == 0x2D || b == 0x5F || b == 0x2E || b == 0x7E

/-- `{:X}`. -/
def upperDigit (n : Nat) : Char :=
  if n < 10 then Char.ofNat ('0'.toNat + n) else Char.ofNat ('A'.toNat + n - 10)

/-- The value of an upper-case hexadecimal digit. -/
def digitValue (c : Char) : Nat :=
  if c.toNat < 'A'.toNat then c.toNat - '0'.toNat else c.toNat + 10 - 'A'.toNat

def encodeByte (b : UInt8) : List Char :=
  if unreserved b then [Char.ofNat b.toNat]
  else ['%', upperDigit (b.toNat / 16), upperDigit (b.toNat % 16)]

/-- The bytes a text of ASCII characters stands for. -/
def decode : List Char → List UInt8
  | '%' :: high :: low :: rest =>
    UInt8.ofNat (16 * digitValue high + digitValue low) :: decode rest
  | c :: rest => UInt8.ofNat c.toNat :: decode rest
  | [] => []

/-- The characters of an encoded text. -/
def encoded (c : Char) : Bool :=
  Text.isAsciiAlphanumeric c || c == '-' || c == '_' || c == '.' || c == '~' || c == '%'

theorem decode_cons {c : Char} (h : c ≠ '%') (rest : List Char) :
    decode (c :: rest) = UInt8.ofNat c.toNat :: decode rest := by
  rw [decode]
  rintro high low tail rfl
  exact absurd rfl h

/-- What a byte becomes, for each byte. -/
theorem encodeByte_all : ∀ n : Fin 256, (encodeByte (UInt8.ofNat n.val)).all encoded = true ∧
    if unreserved (UInt8.ofNat n.val) then
      Char.ofNat n.val ≠ '%' ∧ (Char.ofNat n.val).toNat = n.val
    else
      16 * digitValue (upperDigit (n.val / 16)) + digitValue (upperDigit (n.val % 16)) = n.val := by
  decide +kernel

theorem encodeByte_encoded (b : UInt8) : ∀ c ∈ encodeByte b, encoded c = true := by
  have h := (encodeByte_all ⟨b.toNat, b.toNat_lt⟩).1
  rw [UInt8.ofNat_toNat] at h
  exact List.all_eq_true.mp h

theorem decode_encodeByte (b : UInt8) (rest : List Char) :
    decode (encodeByte b ++ rest) = b :: decode rest := by
  have h := (encodeByte_all ⟨b.toNat, b.toNat_lt⟩).2
  rw [UInt8.ofNat_toNat] at h
  dsimp only at h
  unfold encodeByte
  by_cases hplain : unreserved b = true
  · rw [if_pos hplain] at h ⊢
    rw [List.singleton_append, decode_cons h.1, h.2, UInt8.ofNat_toNat]
  · rw [if_neg hplain] at h ⊢
    show UInt8.ofNat _ :: decode rest = _
    rw [h, UInt8.ofNat_toNat]

theorem decode_encodeBytes (bytes : List UInt8) (rest : List Char) :
    decode (bytes.flatMap encodeByte ++ rest) = bytes ++ decode rest := by
  induction bytes with
  | nil => rfl
  | cons b bytes ih =>
    rw [List.flatMap_cons, List.append_assoc, decode_encodeByte, ih, List.cons_append]

/-! ## Texts -/

/-- A text, every byte encoded. -/
def encode (s : String) : String := String.ofList ((Text.bytes s).flatMap encodeByte)

theorem encode_encoded (s : String) : ∀ c ∈ (encode s).toList, encoded c = true := by
  intro c hc
  rw [encode, String.toList_ofList, List.mem_flatMap] at hc
  obtain ⟨b, -, hb⟩ := hc
  exact encodeByte_encoded b c hb

theorem decode_encode (s : String) : decode (encode s).toList = Text.bytes s := by
  have h := decode_encodeBytes (Text.bytes s) []
  rw [List.append_nil, decode, List.append_nil] at h
  rw [encode, String.toList_ofList, h]

theorem encode_injective : Function.Injective encode := by
  intro s t h
  apply Text.bytes_injective
  rw [← decode_encode, ← decode_encode, h]

/-- The segments of a path, encoded. -/
def encodePath (s : String) : String :=
  Text.join "/" ((Text.split '/' s.toList).map fun segment => encode (String.ofList segment))

/-- The segments, encoded and joined again. -/
def joined (segments : List (List Char)) : List Char :=
  (Text.join "/" (segments.map fun segment => encode (String.ofList segment))).toList

theorem joined_cons (c : Char) (segment : List Char) (rest : List (List Char)) :
    joined ((c :: segment) :: rest) =
      (String.utf8EncodeChar c).flatMap encodeByte ++ joined (segment :: rest) := by
  have hencode : (encode (String.ofList (c :: segment))).toList =
      (String.utf8EncodeChar c).flatMap encodeByte ++ (encode (String.ofList segment)).toList := by
    simp [encode, Text.bytes]
  unfold joined
  cases rest with
  | nil => simpa [Text.join] using hencode
  | cons next rest =>
    simp only [List.map_cons, Text.join, String.toList_append, hencode, List.append_assoc]

theorem joined_nil (segment : List Char) (rest : List (List Char)) :
    joined ([] :: segment :: rest) = '/' :: joined (segment :: rest) := by
  unfold joined
  cases rest <;> simp [Text.join, encode, Text.bytes]

theorem decode_joined (l : List Char) :
    decode (joined (Text.split '/' l)) = l.flatMap String.utf8EncodeChar := by
  induction l with
  | nil => rfl
  | cons c l ih =>
    unfold Text.split
    split
    · rename_i hnil
      exact absurd hnil (Text.split_ne_nil '/' l)
    · rename_i segment rest heq
      rw [heq] at ih
      split
      · rename_i hslash
        rw [joined_nil, decode_cons (by decide), ih, hslash]
        rfl
      · rw [joined_cons, decode_encodeBytes, ih, List.flatMap_cons]

/-- **The path is read back.** -/
theorem decode_encodePath (s : String) : decode (encodePath s).toList = Text.bytes s :=
  decode_joined s.toList

theorem encodePath_injective : Function.Injective encodePath := by
  intro s t h
  apply Text.bytes_injective
  rw [← decode_encodePath, ← decode_encodePath, h]

theorem joined_encoded (segments : List (List Char)) :
    ∀ c ∈ joined segments, encoded c = true ∨ c = '/' := by
  unfold joined
  intro c hc
  induction segments with
  | nil => cases hc
  | cons segment rest ih =>
    cases rest with
    | nil => exact .inl (encode_encoded _ c hc)
    | cons next rest =>
      rw [List.map_cons, List.map_cons, Text.join, String.toList_append, String.toList_append,
        List.mem_append, List.mem_append] at hc
      · rcases hc with (hc | hc) | hc
        · exact .inl (encode_encoded _ c hc)
        · exact .inr (List.mem_singleton.mp hc)
        · exact ih hc
      · exact List.cons_ne_nil _ _

/-! ## Pieces -/

section
variable {sep : Char}

theorem split_piece {l : List Char} (h : sep ∉ l) : Text.split sep l = [l] := by
  induction l with
  | nil => rfl
  | cons c l ih =>
    rw [List.mem_cons, not_or] at h
    rw [Text.split, ih h.2]
    exact if_neg fun heq => h.1 heq.symm

/-- What is joined is split again. -/
theorem split_join {pieces : List String} (hne : pieces ≠ [])
    (h : ∀ piece ∈ pieces, sep ∉ piece.toList) :
    Text.split sep (Text.join (String.singleton sep) pieces).toList =
      pieces.map String.toList := by
  induction pieces with
  | nil => exact absurd rfl hne
  | cons piece pieces ih =>
    obtain ⟨hpiece, hrest⟩ := List.forall_mem_cons.mp h
    cases pieces with
    | nil => exact split_piece hpiece
    | cons next pieces =>
      rw [Text.join, String.toList_append, String.toList_append, String.toList_singleton,
        List.append_assoc, List.singleton_append, Text.split_append hpiece,
        ih (List.cons_ne_nil _ _) hrest]
      · rfl
      · exact List.cons_ne_nil _ _

/-- Each line ends in the separator. -/
theorem split_lines {lines : List (List Char)} (h : ∀ line ∈ lines, sep ∉ line)
    (rest : List Char) :
    Text.split sep ((lines.flatMap fun line => line ++ [sep]) ++ rest) =
      lines ++ Text.split sep rest := by
  induction lines with
  | nil => rfl
  | cons line lines ih =>
    obtain ⟨hline, hlines⟩ := List.forall_mem_cons.mp h
    rw [List.flatMap_cons, List.append_assoc, List.append_assoc, List.singleton_append,
      Text.split_append hline, ih hlines, List.cons_append]

end

/-! ## Queries -/

/-- `name=value`, both encoded. -/
def queryPiece (pair : String × String) : String := encode pair.1 ++ "=" ++ encode pair.2

/-- The pairs of a query, behind one another with `&`. -/
def query (pairs : List (String × String)) : String := Text.join "&" (pairs.map queryPiece)

theorem not_mem_encode {c : Char} (h : encoded c = false) (s : String) :
    c ∉ (encode s).toList := by
  intro hc
  rw [encode_encoded s c hc] at h
  cases h

theorem queryPiece_injective : Function.Injective queryPiece := by
  rintro ⟨name, value⟩ ⟨name', value'⟩ h
  have hsplit : ∀ name value, Text.split '=' (queryPiece (name, value)).toList =
      [(encode name).toList, (encode value).toList] := by
    intro name value
    rw [queryPiece, String.toList_append, String.toList_append, List.append_assoc]
    exact (Text.split_append (not_mem_encode (by decide) name)).trans
      (congrArg _ (split_piece (not_mem_encode (by decide) value)))
  have hpieces := hsplit name value
  rw [h, hsplit] at hpieces
  obtain ⟨hname, hvalue⟩ := List.cons.inj hpieces
  rw [encode_injective (String.toList_injective hname),
    encode_injective (String.toList_injective (List.cons.inj hvalue).1)]

theorem not_mem_queryPiece {c : Char} (h : encoded c = false) (hc : c ≠ '=')
    (pair : String × String) : c ∉ (queryPiece pair).toList := by
  rw [queryPiece, String.toList_append, String.toList_append]
  intro hmem
  rcases List.mem_append.mp hmem with hmem | hmem
  · rcases List.mem_append.mp hmem with hmem | hmem
    · exact not_mem_encode h _ hmem
    · exact hc (List.mem_singleton.mp hmem)
  · exact not_mem_encode h _ hmem

theorem not_mem_join {c : Char} {separator : String} (hsep : c ∉ separator.toList)
    {pieces : List String} (h : ∀ piece ∈ pieces, c ∉ piece.toList) :
    c ∉ (Text.join separator pieces).toList := by
  induction pieces with
  | nil => exact List.not_mem_nil
  | cons piece pieces ih =>
    obtain ⟨hpiece, hrest⟩ := List.forall_mem_cons.mp h
    cases pieces with
    | nil => exact hpiece
    | cons next pieces =>
      rw [Text.join, String.toList_append, String.toList_append]
      · simp only [List.mem_append, not_or]
        exact ⟨⟨hpiece, hsep⟩, ih hrest⟩
      · exact List.cons_ne_nil _ _

/-- **A query determines its pairs.** -/
theorem query_injective {pairs pairs' : List (String × String)} (hne : pairs ≠ [])
    (hne' : pairs' ≠ []) (h : query pairs = query pairs') : pairs = pairs' := by
  have hsplit : ∀ {pairs : List (String × String)}, pairs ≠ [] →
      Text.split '&' (query pairs).toList = (pairs.map queryPiece).map String.toList := by
    intro pairs hne
    refine split_join (mt List.map_eq_nil_iff.mp hne) ?_
    intro piece hpiece
    obtain ⟨pair, -, rfl⟩ := List.mem_map.mp hpiece
    exact not_mem_queryPiece (by decide) (by decide) pair
  have hpieces := hsplit hne
  rw [h, hsplit hne'] at hpieces
  exact (List.map_injective_iff.mpr queryPiece_injective
    (List.map_injective_iff.mpr (fun _ _ => String.toList_injective) hpieces)).symm

theorem not_mem_query {c : Char} (h : encoded c = false) (hequals : c ≠ '=') (hand : c ≠ '&')
    (pairs : List (String × String)) : c ∉ (query pairs).toList := by
  refine not_mem_join (mt List.mem_singleton.mp hand) ?_
  intro piece hpiece
  obtain ⟨pair, -, rfl⟩ := List.mem_map.mp hpiece
  exact not_mem_queryPiece h hequals pair

end Core.Percent
