import UriTemplate.Text.Numeral

/-! # Binary floating-point numbers

A floating-point value is kept decoded, as what it denotes: not a number, an infinity, or
a sign and a magnitude `mantissa * 2 ^ exponent`.  All comparisons are then exact, also
with integers of any size. -/

namespace UriTemplate

/-- A floating-point number of 64 bits.  The sign of a zero is kept. -/
inductive Binary64 where
  | nan
  | infinite (negative : Bool)
  | finite (negative : Bool) (mantissa : Nat) (exponent : Int)
deriving DecidableEq

namespace Binary64

/-- Decodes the interchange format: a sign bit, eleven exponent bits, 52 fraction bits. -/
def ofBits (bits : UInt64) : Binary64 :=
  let negative := bits >>> 63 != 0
  -- the exponent `0x7FF` marks what is not finite, and `0` the numbers without a hidden bit
  let exponent := ((bits >>> 52) &&& 0x7FF).toNat
  let fraction := (bits &&& 0xFFFFFFFFFFFFF).toNat
  if exponent = 0x7FF then
    if fraction = 0 then infinite negative else nan
  else if exponent = 0 then finite negative fraction (-1074)
  else finite negative (Nat.pow 2 52 + fraction) (exponent - 1075)

/-- Changes the sign if asked to. -/
def withSign (negative : Bool) : Binary64 → Binary64
  | nan => nan
  | infinite _ => infinite negative
  | finite _ m q => finite negative m q

/-- The number nearest to `mantissa * 10 ^ exponent`. -/
def ofDecimal (mantissa : Nat) (exponent : Int) : Binary64 :=
  -- the number has `size` digits before its point; far outside the range of the format the
  -- answer is known without a power of ten
  let size : Int := (Nat.toDigits 10 mantissa).length + exponent
  if mantissa = 0 || size < -400 then finite false 0 (-1074)
  else if 400 < size then infinite false
  else ofBits (Float.ofScientific mantissa (exponent < 0) exponent.natAbs).toBits

/-- Reads an exponent part: nothing, or an `e` and an integer. -/
def exponent? : Text → Option Int
  | [] => some 0
  | .scalar c :: rest =>
    let (negative, digits) := Text.splitSign rest
    if (c = 'e' || c = 'E') && !digits.isEmpty && digits.all CodePoint.isDigit then
      some (Text.signed negative (Text.decimal digits))
    else none
  | _ => none

/-- Reads an unsigned decimal: digits with at most one point, then an exponent part. -/
def unsigned? (t : Text) : Option Binary64 :=
  let whole := t.takeWhile CodePoint.isDigit
  let (fraction, rest) := match t.dropWhile CodePoint.isDigit with
    | .scalar '.' :: rest => (rest.takeWhile CodePoint.isDigit, rest.dropWhile CodePoint.isDigit)
    | rest => ([], rest)
  if whole.isEmpty && fraction.isEmpty then none
  else (exponent? rest).map fun e =>
    ofDecimal (Text.decimal (whole ++ fraction)) (e - fraction.length)

/-- Reads a number: `nan`, `inf`, `infinity` or a decimal, with an optional sign.  The case of
    letters does not matter. -/
def ofText? (t : Text) : Option Binary64 := do
  let (negative, body) := Text.splitSign (← t.numeral?)
  let word := body.map CodePoint.lower
  if word = "nan".toText then some nan
  else if word = "inf".toText || word = "infinity".toText then some (infinite negative)
  else (unsigned? body).map (withSign negative)

/-- The exact value of a finite number, as a dyadic rational. -/
def toDyadic? : Binary64 → Option Dyadic
  | finite negative m q => some (.ofIntWithPrec (if negative then -(m : Int) else m) (-q))
  | _ => none

end Binary64

end UriTemplate
