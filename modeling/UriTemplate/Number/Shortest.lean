import UriTemplate.Number.Binary64

/-! # Shortest decimals

A floating-point number is written with the fewest decimal digits that read back as the
same number, and among those as the decimal nearest to it.  The reals that read back as
`m * 2 ^ q` form an interval: it reaches half way to the two neighbouring numbers, and
holds its ends if `m` is even.  The decimals with a last digit worth `10 ^ k` form a grid,
and if a point of the grid lies in the interval then so does one of the two points next to
the number.  So the grids are tried from the coarsest to finer ones, at those two points. -/

namespace UriTemplate

namespace Shortest

/-- The interval of reals that read back as one number, in units of `2 ^ unit`: the number
    itself, its two ends, and whether the ends belong to it. -/
structure Interval where
  unit : Int
  centre : Nat
  lower : Nat
  upper : Nat
  closed : Bool

/-- The interval around `m * 2 ^ q`.  The next smaller number is only half as far away as
    the next larger one if `m` is the least mantissa of its exponent. -/
def Interval.around (m : Nat) (q : Int) : Interval where
  unit := q - 2
  centre := 4 * m
  lower := if m = Nat.pow 2 52 && -1074 < q then 4 * m - 1 else 4 * m - 2
  upper := 4 * m + 2
  closed := m % 2 = 0

/-- The point of the grid `10 ^ k` in the interval that is nearest to the number, of the two
    next to it; a tie goes to the even one. -/
def Interval.nearest? (i : Interval) (k : Int) : Option Nat :=
  -- `d * 10 ^ k` compares to `n * 2 ^ unit` as `d * step` to `n * scale`
  let step := Nat.pow 10 k.toNat * Nat.pow 2 (-i.unit).toNat
  let scale := Nat.pow 10 (-k).toNat * Nat.pow 2 i.unit.toNat
  let inside (d : Nat) : Bool :=
    if i.closed then i.lower * scale ≤ d * step && d * step ≤ i.upper * scale
    else i.lower * scale < d * step && d * step < i.upper * scale
  let below := i.centre * scale / step
  let above := below + 1
  let gapBelow := i.centre * scale - below * step
  let gapAbove := above * step - i.centre * scale
  match 0 < below && inside below, inside above with
  | true, true =>
    some (if gapBelow < gapAbove || (gapBelow == gapAbove && below % 2 == 0) then below else above)
  | true, false => some below
  | false, true => some above
  | false, false => none

/-- The first grid with a point in the interval, from `10 ^ k` to finer ones. -/
def Interval.search (i : Interval) : Nat → Int → Nat × Int
  | 0, k => (0, k)
  | tries + 1, k => match i.nearest? k with
    | some d => (d, k)
    | none => i.search tries (k - 1)

/-- The shortest decimal `d * 10 ^ k` for a positive number `m * 2 ^ q`.  The search starts
    at a power of ten above the number, and seventeen digits always suffice. -/
def digits (m : Nat) (q : Int) : Nat × Int :=
  -- the number is less than `2 ^ bits`, and `30103 / 100000` is above the logarithm of two
  let bits : Int := Nat.log2 m + 1 + q
  (Interval.around m q).search 24 (Int.fdiv (bits * 30103) 100000 + 1)

end Shortest

namespace Binary64

/-- The decimal `d * 10 ^ k`: with a point among or before its digits if its first digit is
    worth at least `10 ^ -4` and less than `10 ^ 16`, always with a digit after the point,
    and otherwise with one digit before the point and an exponent of at least two digits. -/
def writeDecimal (d : Nat) (k : Int) : Text :=
  let ds := Text.ofNat d
  -- the first digit is worth `10 ^ lead`
  let lead : Int := ds.length - 1 + k
  let zeros (n : Int) : Text := List.replicate n.toNat (.scalar '0')
  if -4 ≤ lead && lead < 16 then
    if 0 ≤ k then ds ++ zeros k ++ ".0".toText
    else if 0 ≤ lead then
      ds.take (lead + 1).toNat ++ .scalar '.' :: ds.drop (lead + 1).toNat
    else "0.".toText ++ zeros (-lead - 1) ++ ds
  else
    let power := Text.ofNat lead.natAbs
    ds.take 1 ++ (if ds.length = 1 then [] else .scalar '.' :: ds.drop 1)
      ++ (if lead < 0 then "e-".toText else "e+".toText)
      ++ zeros (2 - power.length) ++ power

/-- The text of a number. -/
def toText : Binary64 → Text
  | nan => "nan".toText
  | infinite negative => if negative then "-inf".toText else "inf".toText
  | finite negative m q =>
    let magnitude := if m = 0 then "0.0".toText else
      let (d, k) := Shortest.digits m q
      writeDecimal d k
    if negative then .scalar '-' :: magnitude else magnitude

end Binary64

end UriTemplate
