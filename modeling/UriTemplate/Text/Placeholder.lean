import UriTemplate.Text.DecimalDigit

/-! # Texts with placeholders

A text can serve as a pattern in which a name in braces is a place to be filled, and a
doubled brace stands for a brace.  A name of digits, in any script, is the number of a
place.  Here such a text is filled with nothing: it has to be free of places. -/

namespace UriTemplate.Text

/-- Why a pattern cannot be filled with nothing. -/
inductive PlaceholderError where
  /-- A brace without its counterpart, or one inside the name of a place. -/
  | malformed
  /-- A place without a name, or with a number. -/
  | numbered
  /-- A place with a number that is too large to count places. -/
  | overflowing
  /-- A place with a name. -/
  | named
deriving DecidableEq

/-- Whether the format of a place ends, with `depth` braces open inside it. -/
def formatEnds : Nat → Text → Bool
  | _, [] => false
  | depth, .scalar '{' :: rest => formatEnds (depth + 1) rest
  | 0, .scalar '}' :: _ => true
  | depth + 1, .scalar '}' :: rest => formatEnds depth rest
  | depth, _ :: rest => formatEnds depth rest

/-- Whether a place ends, from the text behind its opening brace.  The name of a place may
    have an index in brackets, where braces do not count, and may be followed by an
    exclamation mark and a character, and by a colon and a format. -/
def placeEnds (inIndex : Bool) : Text → Bool
  | [] => false
  | c :: rest =>
    if inIndex then placeEnds (c != .scalar ']') rest
    else if c = .scalar '{' then false
    else if c = .scalar '}' then true
    else if c = .scalar ':' then formatEnds 0 rest
    else if c = .scalar '!' then match rest with
      | _ :: .scalar '}' :: _ => true
      | _ :: .scalar ':' :: format => formatEnds 0 format
      | _ => false
    else placeEnds (c = .scalar '[') rest

/-- The greatest number of a place. -/
def greatestPlace : Nat := Nat.pow 2 63 - 1

/-- The error at a well-formed place, from the digits of its number that were read and the
    rest of its name.  A number is found too large before a later character makes it a name. -/
def placeFault (number : Nat) : Text → PlaceholderError
  | [] => .numbered
  | c :: rest => match c.digitValue? with
    | none => .named
    | some d =>
      if greatestPlace < 10 * number + d then .overflowing else placeFault (10 * number + d) rest

/-- The error at a place, from the text behind its opening brace. -/
def placeError (rest : Text) : PlaceholderError :=
  if !placeEnds false rest then .malformed
  else
    -- attributes and indices are looked up only when there is something to look them up in
    placeFault 0 (rest.takeWhile fun c => !(c ∈ "\x7d:!.[".toText))

/-- Fills a pattern with nothing. -/
def fillNothing : Text → Except PlaceholderError Text
  | [] => .ok []
  | .scalar '{' :: .scalar '{' :: rest => (fillNothing rest).map (.scalar '{' :: ·)
  | .scalar '}' :: .scalar '}' :: rest => (fillNothing rest).map (.scalar '}' :: ·)
  | .scalar '{' :: rest => .error (placeError rest)
  | .scalar '}' :: _ => .error .malformed
  | c :: rest => (fillNothing rest).map (c :: ·)

end UriTemplate.Text
