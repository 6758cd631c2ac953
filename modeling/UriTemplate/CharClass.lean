import UriTemplate.Text.Basic

/-! # Character classes of URI templates

The classes of RFC 6570 that the parser and the encoder consult.  All of them are ASCII:
a template is written in ASCII alone, and every other character of a value is encoded. -/

namespace UriTemplate

namespace CodePoint

/-- The characters of literal text: ASCII without controls, blank, `"`, `%`, `'`, `<`, `>`,
    `\`, `^`, the grave accent, `{`, `|` and `}`. -/
def isLiteral (c : CodePoint) : Bool :=
  c.within [(0x21, 0x21), (0x23, 0x24), (0x26, 0x26), (0x28, 0x3B), (0x3D, 0x3D),
    (0x3F, 0x5B), (0x5D, 0x5D), (0x5F, 0x5F), (0x61, 0x7A), (0x7E, 0x7E)]

/-- The characters of a segment of a variable name: letters, digits and the underscore. -/
def isVarchar (c : CodePoint) : Bool :=
  c.within [(0x30, 0x39), (0x41, 0x5A), (0x5F, 0x5F), (0x61, 0x7A)]

/-- The decimal digits. -/
def isDigit (c : CodePoint) : Bool :=
  c.within [(0x30, 0x39)]

/-- The hexadecimal digits, in either case. -/
def isHexDigit (c : CodePoint) : Bool :=
  c.within [(0x30, 0x39), (0x41, 0x46), (0x61, 0x66)]

/-- The characters that are never encoded: letters, digits, `-`, `.`, `_` and `~`. -/
def isUnreserved (c : CodePoint) : Bool :=
  c.within [(0x2D, 0x2E), (0x30, 0x39), (0x41, 0x5A), (0x5F, 0x5F), (0x61, 0x7A),
    (0x7E, 0x7E)]

/-- The delimiters of URIs: `:/?#[]@` and `!$&()*+,;=` and the single quote. -/
def isReserved (c : CodePoint) : Bool :=
  c.within [(0x21, 0x21), (0x23, 0x24), (0x26, 0x2C), (0x2F, 0x2F), (0x3A, 0x3B),
    (0x3D, 0x3D), (0x3F, 0x40), (0x5B, 0x5B), (0x5D, 0x5D)]

/-- An ASCII letter in its lower case; other characters as they are. -/
def lower : CodePoint → CodePoint
  | scalar c => scalar c.toLower
  | c => c

end CodePoint

/-- Whether a text is a variable name: runs of name characters with single dots between
    them, none of the runs empty. -/
def Text.isVarname (t : Text) : Bool :=
  (t.splitOn (.scalar '.')).all fun segment => !segment.isEmpty && segment.all (·.isVarchar)

end UriTemplate
