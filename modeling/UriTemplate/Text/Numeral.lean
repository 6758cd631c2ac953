import UriTemplate.CharClass
import UriTemplate.Text.Blank
import UriTemplate.Text.DecimalDigit

/-! # Numerals

A number as people write it may have white space around it, digits of any script, and single
underscores that group its digits.  `numeral?` brings such a text into the plain form, with
ASCII digits and nothing between them, and refuses underscores that stand anywhere else.
Integers are read from the plain form here; their digits must not exceed `digitLimit`. -/

namespace UriTemplate

/-- A digit of any script as the ASCII digit of its value; other characters as they are. -/
def CodePoint.asciiDigit (c : CodePoint) : CodePoint :=
  match c.digitValue? with
  | some d => .scalar (Char.ofNat ('0'.toNat + d))
  | none => c

namespace Text

/-- A text without the underscores between its digits; `behindDigit` says whether a digit
    stands in front of it.  There must be no other underscores. -/
def ungroup? (behindDigit : Bool) : Text → Option Text
  | [] => some []
  | c :: rest =>
    if c = .scalar '_' then
      match rest with
      | d :: _ => if behindDigit && d.isDigit then ungroup? false rest else none
      | [] => none
    else (ungroup? c.isDigit rest).map (c :: ·)

/-- The plain form of a number's text. -/
def numeral? (t : Text) : Option Text :=
  ungroup? false ((t.trim CodePoint.isBlank).map CodePoint.asciiDigit)

/-- Takes a sign off the front of a text: whether it was a minus, and the rest. -/
def splitSign : Text → Bool × Text
  | .scalar '-' :: rest => (true, rest)
  | .scalar '+' :: rest => (false, rest)
  | t => (false, t)

/-- The integer with a sign and a magnitude. -/
def signed (negative : Bool) (n : Nat) : Int := if negative then -n else n

/-- Reads an integer: decimal digits, of which there must not be too many, with an optional
    sign. -/
def toInt? (t : Text) : Option Int := do
  let (negative, digits) := splitSign (← t.numeral?)
  if digits.isEmpty || digitLimit < digits.length || !digits.all CodePoint.isDigit then none
  else some (signed negative (decimal digits))

end Text

end UriTemplate
