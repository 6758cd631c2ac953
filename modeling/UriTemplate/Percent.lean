import UriTemplate.Text.Quoted
import UriTemplate.CharClass

/-! # Percent-encoding

A value enters a URI with every character that is not allowed replaced by its UTF-8 bytes,
each written as a percent sign and two upper-case hexadecimal digits.  There are two
policies.  Usually only unreserved characters pass.  Where reserved characters are allowed
they pass too, and so do percent-encoded triplets that the value already holds; a percent
sign that starts no triplet is encoded. -/

namespace UriTemplate

/-- A run of surrogates in a text that should be encoded: where it starts, its first
    surrogate, and its length. -/
structure Unencodable where
  position : Nat
  first : Fin 2048
  length : Nat
deriving DecidableEq

/-- What is wrong with the text, with the run's first surrogate if it is a single one. -/
def Unencodable.message (u : Unencodable) : Text :=
  "'utf-8' codec can't encode character".toText ++
    (if u.length = 1 then
      " ".toText ++ Text.quoted [.surrogate u.first] ++ " in position ".toText ++
        Text.ofNat u.position
    else
      "s in position ".toText ++ Text.ofNat u.position ++ "-".toText ++
        Text.ofNat (u.position + u.length - 1)) ++
    ": surrogates not allowed".toText

namespace Percent

/-- The upper-case hexadecimal digit of a number below sixteen. -/
def upperHexDigit (n : Nat) : Char :=
  if n < 10 then Char.ofNat (0x30 + n) else Char.ofNat (0x37 + n)

/-- The triplet of a byte. -/
def triplet (b : UInt8) : Text :=
  [.scalar '%', .scalar (upperHexDigit (b.toNat / 16)), .scalar (upperHexDigit (b.toNat % 16))]

/-- Whether a character passes unencoded. -/
def passes (allowReserved : Bool) (c : CodePoint) : Bool :=
  c.isUnreserved || (allowReserved && c.isReserved)

/-- A character, or the triplets of its UTF-8 bytes. -/
def encodeChar (allowReserved : Bool) (c : Char) : Text :=
  if passes allowReserved (.scalar c) then [.scalar c]
  else (String.utf8EncodeChar c).flatMap triplet

/-- Encodes a text.  Positions in an error count from the last triplet that passed, since
    the text between two triplets is encoded as a piece of its own. -/
def encodeFrom (allowReserved : Bool) (position : Nat) : Text → Except Unencodable Text
  | [] => .ok []
  | .scalar '%' :: a :: b :: rest =>
    -- a triplet passes as it is, and the count begins anew behind it
    if allowReserved && a.isHexDigit && b.isHexDigit then
      (encodeFrom allowReserved 0 rest).map fun t => .scalar '%' :: a :: b :: t
    else
      (encodeFrom allowReserved (position + 1) (a :: b :: rest)).map fun t =>
        encodeChar allowReserved '%' ++ t
  | .scalar c :: rest =>
    (encodeFrom allowReserved (position + 1) rest).map fun t => encodeChar allowReserved c ++ t
  | .surrogate n :: rest =>
    .error ⟨position, n, 1 + (rest.takeWhile CodePoint.isSurrogate).length⟩

/-- Encodes a text under one of the two policies. -/
def encode (allowReserved : Bool) (t : Text) : Except Unencodable Text :=
  encodeFrom allowReserved 0 t

/-- Encodes a byte string: the bytes of unreserved characters pass. -/
def encodeBytes (bytes : List UInt8) : Text :=
  bytes.flatMap fun b =>
    let c : CodePoint := .scalar (Char.ofNat b.toNat)
    if b < 0x80 && c.isUnreserved then [c] else triplet b

end Percent

end UriTemplate
