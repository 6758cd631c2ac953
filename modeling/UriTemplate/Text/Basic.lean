/-! # Texts

A text is a sequence of code points.  It differs from `String` in one point: the code
points include the 2048 surrogates, which no UTF-8 string can hold, so that a value with
a lone surrogate can be carried around, compared and quoted in a message, and refused
only where it would have to be encoded.  Lengths, positions and the order of texts count
code points. -/

namespace UriTemplate

/-- A code point: a Unicode scalar value, or the surrogate `0xD800 + offset`. -/
inductive CodePoint where
  | scalar (char : Char)
  | surrogate (offset : Fin 2048)
deriving DecidableEq, Inhabited

namespace CodePoint

/-- The number of the code point. -/
def toNat : CodePoint → Nat
  | scalar c => c.toNat
  | surrogate n => 0xD800 + n.val

/-- The code point of a number, if it is one. -/
def ofNat? (n : Nat) : Option CodePoint :=
  if n < 0xD800 then some (scalar (Char.ofNat n))
  else if h : n < 0xE000 then some (surrogate ⟨n - 0xD800, by omega⟩)
  else if n < 0x110000 then some (scalar (Char.ofNat n))
  else none

/-- The character of a scalar value. -/
def char? : CodePoint → Option Char
  | scalar c => some c
  | surrogate _ => none

/-- Whether the code point is a surrogate. -/
def isSurrogate : CodePoint → Bool
  | scalar _ => false
  | surrogate _ => true

/-- Whether the code point lies in one of the closed ranges. -/
def within (ranges : List (Nat × Nat)) (c : CodePoint) : Bool :=
  ranges.any fun r => r.1 ≤ c.toNat && c.toNat ≤ r.2

end CodePoint

/-- A sequence of code points. -/
abbrev Text := List CodePoint

end UriTemplate

/-- The text of a string: its characters in order. -/
def String.toText (s : String) : UriTemplate.Text := s.toList.map .scalar

namespace UriTemplate.Text

/-- The string with the characters of the text, if the text has no surrogate. -/
def toString? (t : Text) : Option String := (t.mapM CodePoint.char?).map String.ofList

/-- Texts are ordered by the numbers of their code points, the first difference deciding. -/
def le : Text → Text → Bool
  | [], _ => true
  | _ :: _, [] => false
  | a :: s, b :: t => a.toNat < b.toNat || (a.toNat == b.toNat && le s t)

/-- The decimal digits of a natural number, without leading zeros. -/
def ofNat (n : Nat) : Text := (Nat.toDigits 10 n).map .scalar

/-- The decimal digits of an integer, after a minus sign if it is negative. -/
def ofInt (n : Int) : Text :=
  if n < 0 then .scalar '-' :: ofNat n.natAbs else ofNat n.natAbs

/-- The most decimal digits with which an integer is read or written. -/
def digitLimit : Nat := 4300

/-- The decimal digits of an integer, unless they are too many. -/
def ofInt? (n : Int) : Option Text :=
  if n.natAbs < Nat.pow 10 digitLimit then some (ofInt n) else none

/-- The number that a run of decimal digits denotes. -/
def decimal (digits : Text) : Nat := Nat.ofDigitChars 10 (digits.filterMap CodePoint.char?) 0

/-- Reading the digits of a number gives the number back. -/
@[simp] theorem decimal_ofNat (n : Nat) : decimal (ofNat n) = n := by
  -- wrapping the digits as code points and unwrapping them changes nothing
  have h : (ofNat n).filterMap CodePoint.char? = Nat.toDigits 10 n := by
    rw [ofNat, List.filterMap_map]
    exact List.filterMap_some
  rw [decimal, h, Nat.ofDigitChars_ten_toDigits]

/-- A text without the characters of a class at its two ends. -/
def trim (p : CodePoint → Bool) (t : Text) : Text := ((t.dropWhile p).reverse.dropWhile p).reverse

/-- The texts joined with commas and blanks, as the members of a written collection are. -/
def commaList (ts : List Text) : Text := ", ".toText.intercalate ts

end UriTemplate.Text
