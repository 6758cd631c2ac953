import UriTemplate.Percent
import UriTemplate.Proofs.Runs

/-!
# Encoded texts

A URI is written with unreserved characters, reserved characters and percent-encoded triplets
alone (`IsUriText`).  Under either policy an encoded text is of this form
(`isUriText_encodeFrom`); where reserved characters pass, the texts of this form are those that
encoding leaves alone (`encode_eq_self_iff`).

A text can be encoded just if it has no surrogate (`exists_encode_eq_ok_iff`).
-/

namespace UriTemplate

/-- A text of unreserved characters, reserved characters and percent-encoded triplets. -/
inductive IsUriText : Text → Prop
  | nil : IsUriText []
  | plain (c : CodePoint) (t : Text) (hc : c.isUnreserved = true ∨ c.isReserved = true)
      (ht : IsUriText t) : IsUriText (c :: t)
  | triplet (a b : CodePoint) (t : Text) (ha : a.isHexDigit = true) (hb : b.isHexDigit = true)
      (ht : IsUriText t) : IsUriText (.scalar '%' :: a :: b :: t)

namespace IsUriText

/-! ## Putting texts together -/

/-- URI texts can be put next to each other: none of them ends within a triplet. -/
theorem append {s t : Text} (hs : IsUriText s) (ht : IsUriText t) : IsUriText (s ++ t) := by
  induction hs with
  | nil => exact ht
  | plain c s hc hs ih => exact .plain c _ hc ih
  | triplet a b s ha hb hs ih => exact .triplet a b _ ha hb ih

/-- Unreserved and reserved characters make up a URI text in any order. -/
theorem of_forall {t : Text} (h : ∀ c ∈ t, c.isUnreserved = true ∨ c.isReserved = true) :
    IsUriText t := by
  induction t with
  | nil => exact .nil
  | cons c t ih =>
    exact .plain c t (h c List.mem_cons_self) (ih fun x hx => h x (List.mem_cons_of_mem _ hx))

/-- So can any number of them. -/
theorem flatMap {α : Type} {f : α → Text} (xs : List α) (h : ∀ x ∈ xs, IsUriText (f x)) :
    IsUriText (xs.flatMap f) := by
  induction xs with
  | nil => exact .nil
  | cons x xs ih =>
    rw [List.flatMap_cons]
    exact (h x List.mem_cons_self).append (ih fun y hy => h y (List.mem_cons_of_mem _ hy))

/-- They can have another URI text between them. -/
theorem intercalate {sep : Text} (hsep : IsUriText sep) (ts : List Text)
    (h : ∀ t ∈ ts, IsUriText t) : IsUriText (sep.intercalate ts) := by
  induction ts with
  | nil => exact .nil
  | cons t ts ih =>
    have ht := h t List.mem_cons_self
    have hts := ih fun u hu => h u (List.mem_cons_of_mem _ hu)
    -- nothing stands behind the last text
    cases ts with
    | nil => rwa [List.intercalate_singleton]
    | cons u us =>
      rw [List.intercalate_cons_cons]
      exact (ht.append hsep).append hts

end IsUriText

/-! ## Triplets -/

namespace Text

/-- The text begins with a percent-encoded triplet. -/
def BeginsTriplet (t : Text) : Prop :=
  ∃ a b rest, t = .scalar '%' :: a :: b :: rest ∧ a.isHexDigit = true ∧ b.isHexDigit = true

/-- Two hexadecimal digits behind a percent sign are all that a triplet takes. -/
theorem beginsTriplet_iff {a b : CodePoint} {rest : Text} :
    BeginsTriplet (.scalar '%' :: a :: b :: rest) ↔
      a.isHexDigit = true ∧ b.isHexDigit = true := by
  constructor
  · intro ⟨_, _, _, heq, ha, hb⟩
    cases heq
    exact ⟨ha, hb⟩
  · intro ⟨ha, hb⟩
    exact ⟨a, b, rest, rfl, ha, hb⟩

/-- Where no two characters follow a percent sign, there is no triplet. -/
theorem not_beginsTriplet {c : Char} {rest : Text}
    (h : ∀ a b post, rest = a :: b :: post → c = '%' → False) :
    ¬ BeginsTriplet (.scalar c :: rest) := by
  rintro ⟨a, b, post, heq, -⟩
  cases heq
  exact h a b post rfl rfl

end Text

/-! ## Encoded texts -/

namespace Percent

/-- The digits that bytes are written with are hexadecimal digits. -/
theorem isHexDigit_upperHexDigit :
    ∀ n, n < 16 → (CodePoint.scalar (upperHexDigit n)).isHexDigit = true := by decide

/-- A byte is written as a triplet. -/
theorem isUriText_triplet (b : UInt8) : IsUriText (triplet b) := by
  have hb := b.toNat_lt
  exact .triplet _ _ [] (isHexDigit_upperHexDigit _ (by omega))
    (isHexDigit_upperHexDigit _ (by omega)) .nil

/-- A character is written as itself, if it passes, or as the triplets of its bytes. -/
theorem isUriText_encodeChar (allowReserved : Bool) (c : Char) :
    IsUriText (encodeChar allowReserved c) := by
  unfold encodeChar
  split
  · -- what passes is unreserved or, under the policy for them, reserved
    next hpass =>
    refine .plain _ [] ?_ .nil
    simp only [passes, Bool.or_eq_true, Bool.and_eq_true] at hpass
    exact hpass.imp_right And.right
  · exact .flatMap _ fun b _ => isUriText_triplet b

/-- Under either policy an encoded text is a URI text. -/
theorem isUriText_encodeFrom {allowReserved : Bool} {position : Nat} {t s : Text}
    (h : encodeFrom allowReserved position t = .ok s) : IsUriText s := by
  fun_induction encodeFrom allowReserved position t generalizing s with
  | case1 =>
    cases h
    exact .nil
  | case2 position a b rest hpass ih =>
    -- the triplet was there before
    obtain ⟨s, hs, rfl⟩ := map_eq_ok.mp h
    simp only [Bool.and_eq_true] at hpass
    exact .triplet a b s hpass.1.2 hpass.2 (ih hs)
  | case3 position a b rest hpass ih =>
    -- this percent sign begins no triplet that passes, and is encoded like any character
    obtain ⟨s, hs, rfl⟩ := map_eq_ok.mp h
    exact (isUriText_encodeChar _ _).append (ih hs)
  | case4 position c rest hno ih =>
    obtain ⟨s, hs, rfl⟩ := map_eq_ok.mp h
    exact (isUriText_encodeChar _ _).append (ih hs)
  | case5 => cases h

/-- Unreserved and reserved characters are scalar values other than the percent sign. -/
theorem exists_char_of_plain {c : CodePoint}
    (hc : c.isUnreserved = true ∨ c.isReserved = true) :
    ∃ ch : Char, c = .scalar ch ∧ ch ≠ '%' := by
  cases c with
  | scalar ch =>
    refine ⟨ch, rfl, ?_⟩
    rintro rfl
    exact absurd hc (by decide)
  | surrogate n =>
    -- both classes end far below the surrogates
    simp only [CodePoint.isUnreserved, CodePoint.isReserved, CodePoint.within, List.any_cons,
      List.any_nil, Bool.or_false, Bool.or_eq_true, Bool.and_eq_true, decide_eq_true_eq] at hc
    simp only [CodePoint.toNat] at hc
    omega

/-- A character that is no percent sign is encoded by itself. -/
theorem encodeFrom_cons {allowReserved : Bool} {position : Nat} {c : Char} (hc : c ≠ '%')
    (rest : Text) :
    encodeFrom allowReserved position (.scalar c :: rest) =
      (encodeFrom allowReserved (position + 1) rest).map fun t =>
        encodeChar allowReserved c ++ t := by
  rw [encodeFrom]
  intro a b rest' _ h
  exact absurd h hc

/-- A character that begins no triplet that passes is encoded by itself. -/
theorem encodeFrom_scalar {allowReserved : Bool} {position : Nat} {c : Char} {rest : Text}
    (h : allowReserved = true → ¬ Text.BeginsTriplet (.scalar c :: rest)) :
    encodeFrom allowReserved position (.scalar c :: rest) =
      (encodeFrom allowReserved (position + 1) rest).map fun t =>
        encodeChar allowReserved c ++ t := by
  by_cases hc : c = '%'
  · subst hc
    -- a percent sign with fewer than two characters behind it is none of the encoder's cases
    match rest with
    | [] => rfl
    | [a] => rfl
    | a :: b :: post =>
      have hno : ¬ (allowReserved && a.isHexDigit && b.isHexDigit) = true := by
        intro hpass
        simp only [Bool.and_eq_true] at hpass
        exact h hpass.1.1 (Text.beginsTriplet_iff.mpr ⟨hpass.1.2, hpass.2⟩)
      rw [encodeFrom, if_neg hno]
  · exact encodeFrom_cons hc rest

/-- Where reserved characters pass, a URI text is left as it is. -/
theorem encodeFrom_of_isUriText {s : Text} (h : IsUriText s) (position : Nat) :
    encodeFrom true position s = .ok s := by
  induction h generalizing position with
  | nil => rfl
  | plain c t hc ht ih =>
    -- the character passes, and it is no percent sign that could begin a triplet
    obtain ⟨ch, rfl, hch⟩ := exists_char_of_plain hc
    have hpass : passes true (.scalar ch) = true := by simpa [passes] using hc
    rw [encodeFrom_cons hch, ih, encodeChar, if_pos hpass]
    rfl
  | triplet a b t ha hb ht ih =>
    rw [encodeFrom, if_pos (by simp [ha, hb]), ih]
    rfl

/-- Where reserved characters pass, the texts that are left as they are are the URI texts. -/
theorem encode_eq_self_iff (s : Text) : encode true s = .ok s ↔ IsUriText s :=
  ⟨isUriText_encodeFrom, fun h => encodeFrom_of_isUriText h 0⟩

end Percent

/-! ## Texts that cannot be encoded -/

/-- A text that cannot be encoded. -/
def Text.HasSurrogate (t : Text) : Prop := ∃ c ∈ t, c.isSurrogate = true

instance (t : Text) : Decidable t.HasSurrogate :=
  inferInstanceAs (Decidable (∃ c ∈ t, c.isSurrogate = true))

/-- A surrogate is the first character or stands behind it. -/
theorem Text.hasSurrogate_cons (c : CodePoint) (t : Text) :
    Text.HasSurrogate (c :: t) ↔ c.isSurrogate = true ∨ t.HasSurrogate := by
  simp [Text.HasSurrogate]

/-- Hexadecimal digits are no surrogates. -/
theorem CodePoint.isSurrogate_of_isHexDigit {c : CodePoint} (h : c.isHexDigit = true) :
    c.isSurrogate = false := by
  cases c with
  | scalar ch => rfl
  | surrogate n =>
    simp only [isHexDigit, within, List.any_cons, List.any_nil, Bool.or_false, Bool.or_eq_true,
      Bool.and_eq_true, decide_eq_true_eq] at h
    simp only [toNat] at h
    omega

/-- A text can be encoded just if it has no surrogate. -/
theorem Percent.exists_encodeFrom_eq_ok_iff (allowReserved : Bool) (position : Nat) (t : Text) :
    (∃ s, Percent.encodeFrom allowReserved position t = .ok s) ↔ ¬ t.HasSurrogate := by
  -- the encoder stops at a surrogate (case5) and nowhere else
  fun_induction Percent.encodeFrom allowReserved position t with
  | case1 => simp [Text.HasSurrogate]
  | case2 position a b rest hpass ih =>
    -- the triplet that passes has no surrogate
    simp only [Bool.and_eq_true] at hpass
    rw [exists_map_eq_ok_iff, ih]
    simp only [Text.hasSurrogate_cons, CodePoint.isSurrogate_of_isHexDigit hpass.1.2,
      CodePoint.isSurrogate_of_isHexDigit hpass.2]
    simp [CodePoint.isSurrogate]
  | case3 position a b rest hpass ih =>
    rw [exists_map_eq_ok_iff, ih, Text.hasSurrogate_cons (.scalar '%')]
    simp [CodePoint.isSurrogate]
  | case4 position c rest hno ih =>
    rw [exists_map_eq_ok_iff, ih, Text.hasSurrogate_cons (.scalar c)]
    simp [CodePoint.isSurrogate]
  | case5 position n rest => simp [Text.hasSurrogate_cons, CodePoint.isSurrogate]

/-- The place where encoding begins makes no difference to that. -/
theorem Percent.exists_encode_eq_ok_iff (allowReserved : Bool) (t : Text) :
    (∃ s, Percent.encode allowReserved t = .ok s) ↔ ¬ t.HasSurrogate :=
  exists_encodeFrom_eq_ok_iff allowReserved 0 t

end UriTemplate
