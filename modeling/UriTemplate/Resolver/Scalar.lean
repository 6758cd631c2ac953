import UriTemplate.Value.Basic

/-! # Scalars of configuration documents

A scalar is a value that is written on one line.  In single quotes it is a text, in which a
doubled quote stands for a quote.  Otherwise it is plain and ends where a comment begins: at
a number sign that stands in front or behind a blank.  A plain scalar is nothing, a truth
value, an empty mapping or list, an integer or a number with a point if it is written like
one, and else a text.

Integers have an optional sign and may group their digits by underscores.  They are binary
behind `0b`, hexadecimal behind `0x`, octal behind any other zero, sexagesimal if colons stand
between their places, and else decimal; only decimal digits can be too many. -/

namespace UriTemplate.Document

/-- The blank character. -/
def blank : CodePoint := .scalar ' '

/-- A text without the blanks at its ends. -/
def trimBlanks (t : Text) : Text := t.trim fun c => c == blank || c == .scalar '\t'

/-! ## Numbers -/

/-- Whether a text is a nonempty run of digits of a class and underscores. -/
def isRun (p : CodePoint → Bool) (t : Text) : Bool :=
  !t.isEmpty && t.all fun c => c == .scalar '_' || p c

/-- A run of digits without its underscores. -/
def ungrouped (t : Text) : Text := t.filter fun c => c != .scalar '_'

/-- The binary digits. -/
def isBinaryDigit (c : CodePoint) : Bool := c.within [(0x30, 0x31)]

/-- The octal digits. -/
def isOctalDigit (c : CodePoint) : Bool := c.within [(0x30, 0x37)]

/-- The value of a hexadecimal digit. -/
def hexValue (c : CodePoint) : Nat :=
  if c.isDigit then c.toNat - '0'.toNat else c.lower.toNat - 'a'.toNat + 10

/-- The number of a run of digits in a base.  There has to be a digit. -/
def inBase (base : Nat) (run : Text) : Except Fault Nat :=
  match ungrouped run with
  | [] => .error (.misuse .notANumber)
  | digits => .ok (digits.foldl (fun n d => base * n + hexValue d) 0)

/-- The number of a run of decimal digits. -/
def inDecimal (run : Text) : Except Fault Nat :=
  if Text.digitLimit < (ungrouped run).length then .error (.misuse .oversized)
  else .ok (Text.decimal (ungrouped run))

/-- Whether a text is a place of a sexagesimal number: one or two digits below sixty. -/
def isSixtieth : Text → Bool
  | [d] => d.isDigit
  | [d, e] => d.within [(0x30, 0x35)] && e.isDigit
  | _ => false

/-- The integer without a sign that a text is written as, if it is one. -/
def unsigned? (t : Text) : Option (Except Fault Nat) :=
  match t with
  | [.scalar '0'] => some (.ok 0)
  | .scalar '0' :: .scalar 'b' :: run =>
    if isRun isBinaryDigit run then some (inBase 2 run) else none
  | .scalar '0' :: .scalar 'x' :: run =>
    if isRun CodePoint.isHexDigit run then some (inBase 16 run) else none
  -- behind a leading zero the digits are octal, or the text is no integer
  | .scalar '0' :: run => if isRun isOctalDigit run then some (inBase 8 t) else none
  | .scalar '_' :: _ => none
  | _ => match t.splitOn (.scalar ':') with
    | run :: places =>
      if isRun CodePoint.isDigit run && places.all isSixtieth then
        some ((inDecimal run).map fun n =>
          places.foldl (fun n place => 60 * n + Text.decimal place) n)
      else none
    | [] => none

/-- The integer that a text is written as, if it is one. -/
def integer? (t : Text) : Option (Except Fault Int) :=
  let (negative, body) := Text.splitSign t
  (unsigned? body).map fun n => n.map (Text.signed negative)

/-- Whether a text is an exponent part: nothing, or an `e`, a sign and digits. -/
def isExponent : Text → Bool
  | [] => true
  | c :: sign :: digits =>
    c.lower == .scalar 'e' && (sign == .scalar '+' || sign == .scalar '-') && !digits.isEmpty &&
      digits.all CodePoint.isDigit
  | _ => false

/-- Whether a text without its sign is a number with a point.  Only without a sign may the
    point come first. -/
def isPointed (hasSign : Bool) (t : Text) : Bool :=
  let grouped (c : CodePoint) : Bool := c == .scalar '_' || c.isDigit
  let startsWithDigit (run : Text) : Bool := (run.head?.map CodePoint.isDigit).getD false
  match t.dropWhile grouped with
  | .scalar '.' :: rest =>
    (startsWithDigit t || (!hasSign && startsWithDigit rest && t.head? == some (.scalar '.'))) &&
      isExponent (rest.dropWhile grouped)
  | _ => false

/-- The number with a point that a text is written as, if it is one. -/
def float? (t : Text) : Option Binary64 :=
  let (negative, body) := Text.splitSign t
  if body ∈ [".inf", ".Inf", ".INF"].map String.toText then some (.infinite negative)
  else if t ∈ [".nan", ".NaN", ".NAN"].map String.toText then some .nan
  -- the sign has been taken off if the body is another text
  else if isPointed (body != t) body then
    (Binary64.unsigned? (ungrouped body)).map (.withSign negative)
  else none

/-! ## Scalars -/

/-- The words for nothing. -/
def nullWords : List Text := ["", "~", "null", "Null", "NULL"].map String.toText

/-- The words for true. -/
def trueWords : List Text :=
  ["true", "True", "TRUE", "yes", "Yes", "YES", "on", "On", "ON"].map String.toText

/-- The words for false. -/
def falseWords : List Text :=
  ["false", "False", "FALSE", "no", "No", "NO", "off", "Off", "OFF"].map String.toText

/-- The value of a plain scalar. -/
def plain (t : Text) : Except Fault Value :=
  if t ∈ nullWords then .ok .null
  else if t ∈ trueWords then .ok (.bool true)
  else if t ∈ falseWords then .ok (.bool false)
  else if t = "\x7b\x7d".toText then .ok (.map [])
  else if t = "[]".toText then .ok (.list [])
  -- an integer first, since digits alone are no number with a point
  else match integer? t, float? t with
    | some n, _ => n.map .int
    | none, some x => .ok (.float x)
    | none, none => .ok (.text t)

/-- A text up to the comment in it; `apart` says that no word stands directly in front. -/
def uncommentFrom (apart : Bool) : Text → Text
  | [] => []
  | c :: rest => if apart && c = .scalar '#' then [] else c :: uncommentFrom (c == blank) rest

/-- A plain scalar without the comment behind it. -/
def uncomment (t : Text) : Text := trimBlanks (uncommentFrom true t)

/-- The text up to the closing quote, and what stands behind that. -/
def unquote : Text → Text × Text
  | [] => ([], [])
  | .scalar '\'' :: .scalar '\'' :: rest =>
    let (t, behind) := unquote rest
    (.scalar '\'' :: t, behind)
  | .scalar '\'' :: rest => ([], rest)
  | c :: rest =>
    let (t, behind) := unquote rest
    (c :: t, behind)

/-- The value of a scalar. -/
def scalar : Text → Except Fault Value
  | .scalar '\'' :: rest => .ok (.text (unquote rest).1)
  | t => plain (uncomment t)

end UriTemplate.Document
