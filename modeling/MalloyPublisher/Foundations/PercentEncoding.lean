import Mathlib.Data.List.Basic

/-!
# Percent-encoded texts

A text is carried through a place that gives some characters a meaning of their own by writing each
other character as the octets of its UTF-8 form, two hexadecimal digits an octet. Decoding puts the
octets back together. A decoded text is never longer than what it was decoded from, so a text that
has a `%` in it is not what it decodes to.

## Main definitions

* `Percent.encode` — the encoding that writes some characters as themselves
* `Percent.decode` — the text that is meant, if the octets are one

## Main results

* `Percent.decode_encode` — what is encoded is decoded
* `Percent.eq_of_decode` — a part of a text that decodes to the whole of it is all of it, without a
  `%`
-/

namespace MalloyPublisher.Foundations

namespace Percent

variable {text rest : List Char} {c : Char}

/-! ## Digits -/

def hexDigit (n : ℕ) : Char := Char.ofNat (if n < 10 then 0x30 + n else 0x37 + n)

def hexValue (c : Char) : Option ℕ :=
  if '0' ≤ c ∧ c ≤ '9' then some (c.toNat - 0x30)
  else if 'A' ≤ c ∧ c ≤ 'F' then some (c.toNat - 0x37)
  else if 'a' ≤ c ∧ c ≤ 'f' then some (c.toNat - 0x57)
  else none

theorem hexValue_hexDigit {n : ℕ} (digit : n < 16) : hexValue (hexDigit n) = some n := by
  decide +revert

/-- The characters an octet is written with. -/
theorem hexDigit_mem {n : ℕ} (digit : n < 16) : hexDigit n ∈ "0123456789ABCDEF".toList := by
  decide +revert

theorem ne_of_hexValue {n : ℕ} (isDigit : hexValue c = some n) : c ≠ '%' := by
  rintro rfl
  cases isDigit

/-! ## Texts -/

def octet (byte : UInt8) : List Char :=
  ['%', hexDigit (byte.toNat / 16), hexDigit (byte.toNat % 16)]

/-- The text, with the characters that are not written bare as their octets. -/
def encode (bare : Char → Bool) (text : List Char) : List Char :=
  text.flatMap fun c => if bare c then [c] else (String.utf8EncodeChar c).flatMap octet

/-- The octets of a text. -/
def octets : List Char → Option (List UInt8)
  | [] => some []
  | c :: text =>
    if c = '%' then
      match text with
      | high :: low :: rest =>
        match hexValue high, hexValue low with
        | some high, some low => (octets rest).map (UInt8.ofNat (16 * high + low) :: ·)
        | _, _ => none
      | _ => none
    else (octets text).map (String.utf8EncodeChar c ++ ·)

def decode (text : List Char) : Option (List Char) :=
  (octets text).bind fun bytes => bytes.toByteArray.utf8Decode?.map Array.toList

/-- The length of a text in octets. -/
def size (text : List Char) : ℕ := (text.map Char.utf8Size).foldr Nat.add 0

@[simp] theorem size_cons : size (c :: text) = c.utf8Size + size text := rfl

theorem length_utf8 (text : List Char) :
    (text.flatMap String.utf8EncodeChar).length = size text := by
  induction text with
  | nil => rfl
  | cons c text ih => simp [ih]

/-! ## Encoding -/

theorem octets_octet (byte : UInt8) :
    octets (octet byte ++ rest) = (octets rest).map (byte :: ·) := by
  have bound : byte.toNat < 256 := byte.toNat_lt_size
  have whole : 16 * (byte.toNat / 16) + byte.toNat % 16 = byte.toNat := Nat.div_add_mod _ _
  rw [octet, List.cons_append, List.cons_append, List.cons_append, List.nil_append, octets,
    if_pos rfl]
  simp only [hexValue_hexDigit (show byte.toNat / 16 < 16 by omega),
    hexValue_hexDigit (Nat.mod_lt byte.toNat (by decide : 0 < 16)), whole, UInt8.ofNat_toNat]

theorem octets_flatMap_octet (bytes : List UInt8) :
    octets (bytes.flatMap octet ++ rest) = (octets rest).map (bytes ++ ·) := by
  induction bytes with
  | nil => simp
  | cons byte bytes ih =>
    rw [List.flatMap_cons, List.append_assoc, octets_octet, ih, Option.map_map]
    rfl

theorem octets_bare (notEscape : c ≠ '%') :
    octets (c :: text) = (octets text).map (String.utf8EncodeChar c ++ ·) := by
  rw [octets.eq_def]
  exact if_neg notEscape

section Encode

variable {bare : Char → Bool}

/-- The octets of what is encoded. -/
theorem octets_encode (escapes : bare '%' = false) (text : List Char) :
    octets (encode bare text) = some (text.flatMap String.utf8EncodeChar) := by
  induction text with
  | nil => rfl
  | cons c text ih =>
    rw [encode, List.flatMap_cons, List.flatMap_cons, ← encode]
    by_cases isBare : bare c = true
    · have notEscape : c ≠ '%' := by
        rintro rfl
        rw [escapes] at isBare
        cases isBare
      rw [if_pos isBare, List.singleton_append, octets_bare notEscape, ih, Option.map_some]
    · rw [if_neg isBare, octets_flatMap_octet, ih, Option.map_some]

theorem utf8Decode?_utf8 (text : List Char) :
    (text.flatMap String.utf8EncodeChar).toByteArray.utf8Decode? = some text.toArray :=
  List.utf8Decode?_utf8Encode

theorem decode_encode (escapes : bare '%' = false) (text : List Char) :
    decode (encode bare text) = some text := by
  rw [decode, octets_encode escapes, Option.bind_some, utf8Decode?_utf8]
  rfl

/-- What is encoded holds characters that are written bare, and the characters of octets. -/
theorem mem_encode (member : c ∈ encode bare text) :
    bare c = true ∨ c ∈ "%0123456789ABCDEF".toList := by
  obtain ⟨d, -, written⟩ := List.mem_flatMap.mp member
  by_cases isBare : bare d = true
  · rw [if_pos isBare, List.mem_singleton] at written
    exact .inl (written ▸ isBare)
  · rw [if_neg isBare] at written
    obtain ⟨byte, -, digits⟩ := List.mem_flatMap.mp written
    have bound : byte.toNat < 256 := byte.toNat_lt_size
    right
    show c ∈ '%' :: "0123456789ABCDEF".toList
    simp only [octet, List.mem_cons, List.not_mem_nil, or_false] at digits
    rcases digits with rfl | rfl | rfl
    · exact List.mem_cons_self
    · exact List.mem_cons_of_mem _ (hexDigit_mem (by omega))
    · exact List.mem_cons_of_mem _ (hexDigit_mem (Nat.mod_lt _ (by decide)))

end Encode

/-! ## Texts that decode to themselves -/

/-- A text without a `%` is what it decodes to. -/
theorem decode_self (free : '%' ∉ text) : decode text = some text := by
  have plain : octets text = some (text.flatMap String.utf8EncodeChar) := by
    induction text with
    | nil => rfl
    | cons c text ih =>
      rw [List.mem_cons, not_or] at free
      rw [octets_bare (Ne.symm free.1), ih free.2]
      rfl
  rw [decode, plain, Option.bind_some, utf8Decode?_utf8]
  rfl

/-- An octet takes three characters to write. -/
theorem length_octets {bytes : List UInt8} (isRead : octets text = some bytes) :
    bytes.length + 2 * text.count '%' ≤ size text := by
  fun_induction octets text generalizing bytes with
  | case1 =>
    cases isRead
    simp
  | case2 high low rest high' low' isLow isHigh ih =>
    obtain ⟨later, isLater, rfl⟩ := Option.map_eq_some_iff.mp isRead
    have inner := ih isLater
    have first : low ≠ '%' := ne_of_hexValue isLow
    have second : high ≠ '%' := ne_of_hexValue isHigh
    have sizes := Nat.add_le_add high.utf8Size_pos low.utf8Size_pos
    have own := Char.utf8Size_pos '%'
    rw [List.count_cons_self, List.count_cons_of_ne second, List.count_cons_of_ne first]
    simp only [List.length_cons, size_cons]
    omega
  | case3 => cases isRead
  | case4 => cases isRead
  | case5 c text plain ih =>
    obtain ⟨later, isLater, rfl⟩ := Option.map_eq_some_iff.mp isRead
    have inner := ih isLater
    rw [List.count_cons_of_ne plain]
    simp only [List.length_append, String.length_utf8EncodeChar, size_cons]
    omega

theorem size_decode {value : List Char} (isRead : decode text = some value) :
    size value + 2 * text.count '%' ≤ size text := by
  obtain ⟨bytes, isBytes, isValue⟩ := Option.bind_eq_some_iff.mp isRead
  obtain ⟨found, isFound, rfl⟩ := Option.map_eq_some_iff.mp isValue
  have isSome : bytes.toByteArray.utf8Decode?.isSome := by rw [isFound]; rfl
  have same : (found.toList.flatMap String.utf8EncodeChar).toByteArray = bytes.toByteArray := by
    have whole := ByteArray.utf8Encode_get_utf8Decode? (h := isSome)
    simp only [isFound, Option.get_some] at whole
    exact whole
  have lengths := congrArg ByteArray.size same
  rw [List.size_toByteArray, List.size_toByteArray, length_utf8] at lengths
  rw [lengths]
  exact length_octets isBytes

theorem size_sublist {part whole : List Char} (sublist : part.Sublist whole) :
    size part + (whole.length - part.length) ≤ size whole := by
  induction sublist with
  | slnil => simp
  | cons c sublist ih =>
    have lengths := sublist.length_le
    have own := c.utf8Size_pos
    simp only [size_cons, List.length_cons]
    omega
  | cons_cons c sublist ih =>
    simp only [size_cons, List.length_cons]
    omega

/-- A part of a text that decodes to the whole of it is all of it. -/
theorem eq_of_decode {part whole : List Char} (sublist : part.Sublist whole)
    (isRead : decode part = some whole) : part = whole ∧ '%' ∉ whole := by
  have decoded := size_decode isRead
  have sizes := size_sublist sublist
  have lengths := sublist.length_le
  have same : part = whole := sublist.eq_of_length (by omega)
  refine ⟨same, ?_⟩
  rw [← same]
  exact List.count_eq_zero.mp (by omega)

end Percent

end MalloyPublisher.Foundations
