import UriTemplate.Proofs.Decoding
import UriTemplate.Value.Expansion

/-!
# Encoded values

What decoding and a second encoding make of an encoded text.

Where only unreserved characters pass, decoding gives the bytes of the text, and from these the
text can be told (`eq_of_flatMap_utf8EncodeChar`).  Where reserved characters pass, so do the
triplets that the text holds, and they can no longer be told from those that encoding has made.
Decoding then gives what decoding the text itself gives (`decode_of_encodeFrom`): encoding neither
makes a triplet out of characters that were none, nor takes one apart.

An encoded text is a URI text, and these are the texts that are left alone where reserved
characters pass.
-/

namespace UriTemplate

/-! ## Bytes of characters -/

/-- Characters can be told from their UTF-8 bytes. -/
theorem eq_of_flatMap_utf8EncodeChar {cs ds : List Char}
    (h : cs.flatMap String.utf8EncodeChar = ds.flatMap String.utf8EncodeChar) : cs = ds := by
  -- strings are determined by their bytes, and these are the bytes of the characters
  have hbytes : (String.ofList cs).toByteArray = (String.ofList ds).toByteArray := by
    rw [String.toByteArray_ofList, String.toByteArray_ofList, List.utf8Encode, List.utf8Encode, h]
  have hstring : String.ofList cs = String.ofList ds := String.toByteArray_inj.mp hbytes
  simpa using congrArg String.toList hstring

namespace Percent

/-! ## Decoding -/

/-- A character that begins no triplet is decoded by itself. -/
theorem decode_scalar {c : Char} {rest : Text}
    (h : ¬ Text.BeginsTriplet (.scalar c :: rest)) :
    decode (.scalar c :: rest) = String.utf8EncodeChar c ++ decode rest := by
  by_cases hc : c = '%'
  · subst hc
    -- fewer than two characters behind a percent sign make no triplet
    match rest with
    | [] => rfl
    | [a] => rfl
    | a :: b :: post =>
      rw [Text.beginsTriplet_iff, ← Bool.and_eq_true_iff] at h
      rw [decode, if_neg h]
  · exact decode_cons (fun heq => hc (CodePoint.scalar.inj heq)) rest

/-- Where reserved characters pass, decoding gives what decoding the text itself gives. -/
theorem decode_of_encodeFrom {position : Nat} {t s : Text}
    (h : encodeFrom true position t = .ok s) : decode s = decode t := by
  fun_induction encodeFrom true position t generalizing s with
  | case1 =>
    cases h
    rfl
  | case2 position a b rest hpass ih =>
    -- the triplet is decoded to the same byte on both sides
    obtain ⟨s, hs, rfl⟩ := map_eq_ok.mp h
    have hhex : (a.isHexDigit && b.isHexDigit) = true := by simpa using hpass
    rw [decode, decode, if_pos hhex, if_pos hhex, ih hs]
  | case3 position a b rest hpass ih =>
    -- the percent sign begins no triplet, and what it is encoded to is decoded to it
    obtain ⟨s, hs, rfl⟩ := map_eq_ok.mp h
    have hno : ¬ Text.BeginsTriplet (.scalar '%' :: a :: b :: rest) := by
      rw [Text.beginsTriplet_iff]
      simpa using hpass
    rw [decode_encodeChar, ih hs, decode_scalar hno]
  | case4 position c rest hno ih =>
    obtain ⟨s, hs, rfl⟩ := map_eq_ok.mp h
    rw [decode_encodeChar, ih hs, decode_scalar (Text.not_beginsTriplet hno)]
  | case5 => cases h

/-- Where only unreserved characters pass, different texts are encoded differently. -/
theorem encode_injective {t u s : Text} (ht : encode false t = .ok s)
    (hu : encode false u = .ok s) : t = u := by
  obtain ⟨cs, rfl, hcs⟩ := exists_chars_of_encodeFrom ht
  obtain ⟨ds, rfl, hds⟩ := exists_chars_of_encodeFrom hu
  -- both texts are decoded from the same encoded text
  have hbytes : cs.flatMap String.utf8EncodeChar = ds.flatMap String.utf8EncodeChar := by
    rw [← decode_flatMap_encodeChar false cs, ← decode_flatMap_encodeChar false ds, ← hcs, ← hds]
  rw [eq_of_flatMap_utf8EncodeChar hbytes]

end Percent

/-! ## Values -/

namespace Value

variable {t s : Text} {allowReserved : Bool}

/-- Text values are encoded as texts are. -/
theorem encode_text_eq_ok :
    encode (.text t) allowReserved = .ok s ↔ Percent.encode allowReserved t = .ok s :=
  mapError_eq_ok

/-- A text value cannot be encoded just if it has a surrogate, and the fault says so. -/
theorem encode_text_fails_iff :
    (∃ f, encode (.text t) allowReserved = .error f ∧ f.kind = .unicodeEncode) ↔
      t.HasSurrogate := by
  constructor
  · -- a text without surrogates would have been encoded
    intro ⟨f, hf, _⟩
    refine Classical.byContradiction fun hno => ?_
    obtain ⟨s, hs⟩ := (Percent.exists_encode_eq_ok_iff allowReserved t).mpr hno
    exact ne_ok_of_eq_error hf (encode_text_eq_ok.mpr hs)
  · intro hsurrogate
    cases hrun : Percent.encode allowReserved t with
    | ok s =>
      exact absurd hsurrogate ((Percent.exists_encode_eq_ok_iff allowReserved t).mp ⟨s, hrun⟩)
    | error u => exact ⟨_, mapError_eq_error.mpr ⟨u, hrun, rfl⟩, rfl⟩

/-- Decoding undoes encoding.  Under either policy a text is encoded unless it has a surrogate.
Where only unreserved characters pass, decoding gives the bytes of the text, so that different
texts are encoded differently; where reserved characters pass, decoding gives what decoding the
text itself gives. -/
theorem decode_encode_text (t : Text) :
    (∀ allowReserved, (∃ f, encode (.text t) allowReserved = .error f ∧ f.kind = .unicodeEncode) ↔
        t.HasSurrogate) ∧
      (¬ t.HasSurrogate →
        (∃ s, encode (.text t) false = .ok s ∧ t.utf8? = some (Percent.decode s)) ∧
          ∃ s, encode (.text t) true = .ok s ∧ Percent.decode s = Percent.decode t) ∧
      ∀ u s, encode (.text t) false = .ok s → encode (.text u) false = .ok s → t = u := by
  refine ⟨fun _ => encode_text_fails_iff, fun ht => ⟨?_, ?_⟩, fun u s hs hu => ?_⟩
  · obtain ⟨s, hs⟩ := (Percent.exists_encode_eq_ok_iff false t).mpr ht
    exact ⟨s, encode_text_eq_ok.mpr hs, Percent.utf8?_of_encodeFrom hs⟩
  · obtain ⟨s, hs⟩ := (Percent.exists_encode_eq_ok_iff true t).mpr ht
    exact ⟨s, encode_text_eq_ok.mpr hs, Percent.decode_of_encodeFrom hs⟩
  · exact Percent.encode_injective (encode_text_eq_ok.mp hs) (encode_text_eq_ok.mp hu)

/-- Percent signs in front of triplets, of other percent signs and of a character of two bytes. -/
theorem decode_encode_text_percents :
    ¬ Text.HasSurrogate "%%41%4%c3%é".toText ∧
      encode (.text "%%41%4%c3%é".toText) false = .ok "%25%2541%254%25c3%25%C3%A9".toText ∧
      Text.utf8? "%%41%4%c3%é".toText =
        some (Percent.decode "%25%2541%254%25c3%25%C3%A9".toText) ∧
      encode (.text "%%41%4%c3%é".toText) true = .ok "%25%41%254%c3%25%C3%A9".toText ∧
      Percent.decode "%25%41%254%c3%25%C3%A9".toText =
        Percent.decode "%%41%4%c3%é".toText := by
  have hno : ¬ Text.HasSurrogate "%%41%4%c3%é".toText := by decide
  have hplain : encode (.text "%%41%4%c3%é".toText) false =
      .ok "%25%2541%254%25c3%25%C3%A9".toText := rfl
  have hreserved : encode (.text "%%41%4%c3%é".toText) true =
      .ok "%25%41%254%c3%25%C3%A9".toText := rfl
  obtain ⟨⟨s, hs, hbytes⟩, s', hs', hdecode⟩ := (decode_encode_text "%%41%4%c3%é".toText).2.1 hno
  cases hplain.symm.trans hs
  cases hreserved.symm.trans hs'
  exact ⟨hno, hplain, hbytes, hreserved, hdecode⟩

/-- Where reserved characters pass, an encoded text is not encoded again: whatever policy it was
encoded under, it is left as it is.  The texts that are left as they are are the URI texts. -/
theorem encode_text_again :
    (∀ t allowReserved, ¬ t.HasSurrogate →
        ∃ s, encode (.text t) allowReserved = .ok s ∧ encode (.text s) true = .ok s) ∧
      ∀ s, encode (.text s) true = .ok s ↔ IsUriText s := by
  have hfixed : ∀ s, encode (.text s) true = .ok s ↔ IsUriText s := fun s =>
    encode_text_eq_ok.trans (Percent.encode_eq_self_iff s)
  refine ⟨fun t allowReserved ht => ?_, hfixed⟩
  obtain ⟨s, hs⟩ := (Percent.exists_encode_eq_ok_iff allowReserved t).mpr ht
  exact ⟨s, encode_text_eq_ok.mpr hs, (hfixed s).mpr (Percent.isUriText_encodeFrom hs)⟩

/-- A triplet in lower case that passes, and the percent signs that encoding puts in front of
hexadecimal digits. -/
theorem encode_text_again_percents :
    ¬ Text.HasSurrogate "%c3%4%%41é".toText ∧
      encode (.text "%c3%4%%41é".toText) true = .ok "%c3%254%25%41%C3%A9".toText ∧
      encode (.text "%c3%254%25%41%C3%A9".toText) true = .ok "%c3%254%25%41%C3%A9".toText ∧
      IsUriText "%c3%254%25%41%C3%A9".toText := by
  have hno : ¬ Text.HasSurrogate "%c3%4%%41é".toText := by decide
  have hencode : encode (.text "%c3%4%%41é".toText) true = .ok "%c3%254%25%41%C3%A9".toText := rfl
  obtain ⟨hagain, hfixed⟩ := encode_text_again
  obtain ⟨s, hs, hsame⟩ := hagain _ true hno
  cases hencode.symm.trans hs
  exact ⟨hno, hencode, hsame, (hfixed _).mp hsame⟩

end Value

end UriTemplate
