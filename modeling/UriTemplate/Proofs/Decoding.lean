import UriTemplate.Proofs.Encoding

/-!
# Percent-decoding

A text is decoded to bytes: a triplet to the byte that it stands for, every other character to
its UTF-8 bytes.  A percent sign that no two hexadecimal digits follow stands for itself.

What a character is encoded to is decoded to its UTF-8 bytes, whatever comes behind it
(`decode_encodeChar`).  Under the policy by which only unreserved characters pass, a text is
encoded character by character (`exists_chars_of_encodeFrom`), so that decoding undoes encoding
(`utf8?_of_encodeFrom`).
-/

namespace UriTemplate

/-! ## Bytes -/

/-- The UTF-8 bytes of a code point.  A surrogate has none. -/
def CodePoint.utf8 : CodePoint → List UInt8
  | scalar c => String.utf8EncodeChar c
  | surrogate _ => []

/-- The UTF-8 bytes of a text, if it has no surrogate. -/
def Text.utf8? (t : Text) : Option (List UInt8) :=
  if t.any CodePoint.isSurrogate then none else some (t.flatMap CodePoint.utf8)

/-- The bytes of characters are those of the one and then those of the others. -/
theorem Text.utf8?_map_scalar (cs : List Char) :
    Text.utf8? (cs.map .scalar) = some (cs.flatMap String.utf8EncodeChar) := by
  have hno : (cs.map CodePoint.scalar).any CodePoint.isSurrogate = false := by
    simp [CodePoint.isSurrogate]
  rw [utf8?, if_neg (by simp [hno]), List.flatMap_map]
  rfl

/-- The number of a hexadecimal digit. -/
def CodePoint.hexValue (c : CodePoint) : Nat :=
  if c.toNat < 0x41 then c.toNat - 0x30
  else if c.toNat < 0x61 then c.toNat - 0x37
  else c.toNat - 0x57

namespace Percent

/-- The bytes of a text in which triplets stand for bytes. -/
def decode : Text → List UInt8
  | [] => []
  | .scalar '%' :: a :: b :: rest =>
    if a.isHexDigit && b.isHexDigit then
      UInt8.ofNat (16 * a.hexValue + b.hexValue) :: decode rest
    else String.utf8EncodeChar '%' ++ decode (a :: b :: rest)
  | c :: rest => c.utf8 ++ decode rest

/-- A character that is no percent sign is decoded by itself. -/
theorem decode_cons {c : CodePoint} (hc : c ≠ .scalar '%') (rest : Text) :
    decode (c :: rest) = c.utf8 ++ decode rest := by
  rw [decode]
  intro a b rest' h
  exact absurd h hc

/-- The digit that a number is written with has this number. -/
theorem hexValue_upperHexDigit :
    ∀ n, n < 16 → (CodePoint.scalar (upperHexDigit n)).hexValue = n := by decide

/-- The triplet of a byte is decoded to the byte. -/
theorem decode_triplet (byte : UInt8) (rest : Text) :
    decode (triplet byte ++ rest) = byte :: decode rest := by
  have hbyte := byte.toNat_lt
  have hhigh : byte.toNat / 16 < 16 := by omega
  have hlow : byte.toNat % 16 < 16 := by omega
  -- a byte is its high digit and its low digit
  have hvalue : 16 * (byte.toNat / 16) + byte.toNat % 16 = byte.toNat := by omega
  simp only [triplet, List.cons_append, List.nil_append, decode,
    isHexDigit_upperHexDigit _ hhigh, isHexDigit_upperHexDigit _ hlow,
    hexValue_upperHexDigit _ hhigh, hexValue_upperHexDigit _ hlow, hvalue, Bool.and_self, if_true,
    UInt8.ofNat_toNat]

/-- So are the triplets of several bytes. -/
theorem decode_flatMap_triplet (bytes : List UInt8) (rest : Text) :
    decode (bytes.flatMap triplet ++ rest) = bytes ++ decode rest := by
  induction bytes with
  | nil => rfl
  | cons byte bytes ih =>
    rw [List.flatMap_cons, List.append_assoc, decode_triplet, ih, List.cons_append]

/-- What a character is encoded to is decoded to its UTF-8 bytes. -/
theorem decode_encodeChar (allowReserved : Bool) (c : Char) (rest : Text) :
    decode (encodeChar allowReserved c ++ rest) = String.utf8EncodeChar c ++ decode rest := by
  unfold encodeChar
  split
  · next hpass =>
    -- a character that passes is no percent sign
    simp only [passes, Bool.or_eq_true, Bool.and_eq_true] at hpass
    obtain ⟨ch, hch, hne⟩ := exists_char_of_plain (hpass.imp_right And.right)
    apply decode_cons
    rw [hch]
    exact fun h => hne (CodePoint.scalar.inj h)
  · -- any other character has been written as the triplets of its bytes
    exact decode_flatMap_triplet _ rest

/-- So are the characters of a text, one after the other. -/
theorem decode_flatMap_encodeChar (allowReserved : Bool) (cs : List Char) :
    decode (cs.flatMap (encodeChar allowReserved)) = cs.flatMap String.utf8EncodeChar := by
  induction cs with
  | nil => rfl
  | cons c cs ih => rw [List.flatMap_cons, decode_encodeChar, ih, List.flatMap_cons]

/-- Where only unreserved characters pass, a text is encoded character by character. -/
theorem exists_chars_of_encodeFrom {position : Nat} {t s : Text}
    (h : encodeFrom false position t = .ok s) :
    ∃ cs : List Char, t = cs.map .scalar ∧ s = cs.flatMap (encodeChar false) := by
  fun_induction encodeFrom false position t generalizing s with
  | case1 =>
    cases h
    exact ⟨[], rfl, rfl⟩
  -- under this policy no triplet passes
  | case2 position a b rest hpass ih => cases hpass
  | case3 position a b rest hpass ih =>
    obtain ⟨s, hs, rfl⟩ := map_eq_ok.mp h
    obtain ⟨cs, hcs, rfl⟩ := ih hs
    exact ⟨'%' :: cs, by rw [hcs, List.map_cons], rfl⟩
  | case4 position c rest hno ih =>
    obtain ⟨s, hs, rfl⟩ := map_eq_ok.mp h
    obtain ⟨cs, rfl, rfl⟩ := ih hs
    exact ⟨c :: cs, rfl, rfl⟩
  | case5 => cases h

/-- Where only unreserved characters pass, decoding gives the bytes of the text back. -/
theorem utf8?_of_encodeFrom {position : Nat} {t s : Text}
    (h : encodeFrom false position t = .ok s) : t.utf8? = some (decode s) := by
  obtain ⟨cs, rfl, rfl⟩ := exists_chars_of_encodeFrom h
  rw [Text.utf8?_map_scalar, decode_flatMap_encodeChar]

/-! ## Delimiters -/

/-- Hexadecimal digits are unreserved characters. -/
theorem isUnreserved_upperHexDigit :
    ∀ n, n < 16 → (CodePoint.scalar (upperHexDigit n)).isUnreserved = true := by decide

/-- The characters of a triplet are the percent sign and hexadecimal digits. -/
theorem mem_triplet {c : CodePoint} {byte : UInt8} (h : c ∈ triplet byte) :
    c = .scalar '%' ∨ c.isUnreserved = true := by
  have hbyte := byte.toNat_lt
  simp only [triplet, List.mem_cons, List.not_mem_nil, or_false] at h
  rcases h with rfl | rfl | rfl
  · exact .inl rfl
  · exact .inr (isUnreserved_upperHexDigit _ (by omega))
  · exact .inr (isUnreserved_upperHexDigit _ (by omega))

/-- A character is encoded to unreserved characters and percent signs. -/
theorem mem_encodeChar {c : CodePoint} {ch : Char} (h : c ∈ encodeChar false ch) :
    c = .scalar '%' ∨ c.isUnreserved = true := by
  unfold encodeChar at h
  split at h
  · next hpass =>
    obtain rfl := List.mem_singleton.mp h
    exact .inr (by simpa [passes] using hpass)
  · obtain ⟨byte, -, hc⟩ := List.mem_flatMap.mp h
    exact mem_triplet hc

/-- Where only unreserved characters pass, an encoded text has no others but percent signs. -/
theorem mem_of_encodeFrom {position : Nat} {t s : Text}
    (h : encodeFrom false position t = .ok s) {c : CodePoint} (hc : c ∈ s) :
    c = .scalar '%' ∨ c.isUnreserved = true := by
  obtain ⟨cs, -, rfl⟩ := exists_chars_of_encodeFrom h
  obtain ⟨ch, -, hch⟩ := List.mem_flatMap.mp hc
  exact mem_encodeChar hch

end Percent

end UriTemplate
