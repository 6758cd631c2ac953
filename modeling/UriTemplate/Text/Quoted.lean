import UriTemplate.Text.Printable

/-! # Quoted texts

Messages show a text between quotes: single quotes, or double quotes if the text holds a
single quote and no double one.  The quote in use and the backslash are escaped by a
backslash, tab, line feed and carriage return have escapes of their own, and every other
code point that is not printable is written as `\x`, `\u` or `\U` and two, four or eight
hexadecimal digits.  A byte string is shown in the same way after a `b`, with every byte
outside printable ASCII escaped. -/

namespace UriTemplate.Text

/-- The lower-case hexadecimal digits of a number, padded with zeros to a width. -/
def hexDigits (width n : Nat) : Text :=
  let digits := (Nat.toDigits 16 n).map .scalar
  List.replicate (width - digits.length) (.scalar '0') ++ digits

/-- The quote that encloses a text with these characters. -/
def quoteFor (t : Text) : Char :=
  if t.contains (.scalar '\'') && !t.contains (.scalar '"') then '"' else '\''

/-- The escapes shared by texts and byte strings: the quote in use, the backslash, tab,
    line feed and carriage return. -/
def commonEscape? (quote c : Char) : Option Text :=
  if c = quote || c = '\\' then some [.scalar '\\', .scalar c]
  else if c = '\t' then some "\\t".toText
  else if c = '\n' then some "\\n".toText
  else if c = '\r' then some "\\r".toText
  else none

/-- The escape of a code point by its number, in the shortest form that holds it. -/
def numericEscape (n : Nat) : Text :=
  if n ≤ 0xFF then "\\x".toText ++ hexDigits 2 n
  else if n ≤ 0xFFFF then "\\u".toText ++ hexDigits 4 n
  else "\\U".toText ++ hexDigits 8 n

/-- A code point as it stands between quotes. -/
def quoteCodePoint (quote : Char) (c : CodePoint) : Text :=
  match c.char?.bind (commonEscape? quote) with
  | some escape => escape
  | none => if c.isPrintable then [c] else numericEscape c.toNat

/-- The text between quotes. -/
def quoted (t : Text) : Text :=
  let quote := quoteFor t
  .scalar quote :: t.flatMap (quoteCodePoint quote) ++ [.scalar quote]

/-- A byte as it stands between quotes. -/
def quoteByte (quote : Char) (b : UInt8) : Text :=
  let c := Char.ofNat b.toNat
  match commonEscape? quote c with
  | some escape => escape
  | none => if 0x20 ≤ b && b < 0x7F then [.scalar c] else numericEscape b.toNat

/-- A byte string between quotes, marked by a `b`. -/
def quotedBytes (bytes : List UInt8) : Text :=
  let quote := quoteFor (bytes.map fun b => .scalar (Char.ofNat b.toNat))
  .scalar 'b' :: .scalar quote :: bytes.flatMap (quoteByte quote) ++ [.scalar quote]

end UriTemplate.Text
