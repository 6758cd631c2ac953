import UriTemplate.Template.Format

/-! # Places in a template text

A cursor is a column of a text together with the text from there on.  The operations here
are the steps that the rules of the grammar are made of: taking the longest run of a class
of characters, skipping a character that may or must come next, and failing.  An error
says what was found and what would have continued the template. -/

namespace UriTemplate

/-- What would have continued a template at the place of a syntax error. -/
inductive Expected where
  | literalOrExpression
  | variableName
  | maxLength
  | word (text : Text)
deriving DecidableEq

/-- What is expected, in the words of the messages. -/
def Expected.describe : Expected → Text
  | literalOrExpression => "literal or expression".toText
  | variableName => "variable name".toText
  | maxLength => "prefix length".toText
  | word t => t.quoted

/-- Why a text is not a template. -/
inductive ParseError where
  /-- The character at a column, or the end of the text, continues no template. -/
  | unexpected (column : Nat) (found : Option CodePoint) (expected : Expected)
  /-- The expression that opens at a column is never closed. -/
  | unclosed (column : Nat)
  /-- A prefix length has too many digits to be read as a number. -/
  | oversizedLength (digits : Nat)
deriving DecidableEq

namespace ParseError

/-- The wording for what was found at a column, or the end of the input, in the place of what
    was expected. -/
def mismatch (column : Nat) (found : Option Text) (expected : Text) : Text :=
  (match found with
    | none => "Unexpected end of input".toText
    | some shown => "Unexpected character ".toText ++ shown) ++
    " at column ".toText ++ Text.ofNat column ++ ", expected ".toText ++ expected

/-- The wording of an error. -/
def message : ParseError → Text
  | unexpected column found expected =>
    mismatch column (found.map fun c => Text.quoted [c]) expected.describe
  | unclosed column => "Unclosed expression at column ".toText ++ Text.ofNat column
  | oversizedLength digits =>
    "Exceeds the limit of 4300 digits for a prefix length: ".toText ++ Text.ofNat digits

/-- The column at which the text stops being a template, if it is a matter of syntax. -/
def column? : ParseError → Option Nat
  | unexpected column _ _ => some column
  | unclosed column => some column
  | oversizedLength _ => none

/-- The offending character; at the end of the text there is none. -/
def character? : ParseError → Option CodePoint
  | unexpected _ found _ => found
  | unclosed _ => some (.scalar '{')
  | oversizedLength _ => none

end ParseError

/-- A place in a text: its column, and the text from there on. -/
structure Cursor where
  column : Nat
  rest : Text
deriving DecidableEq

namespace Cursor

/-- The place at a column of a text.  Beyond the end of the text nothing is left. -/
def ofText (t : Text) (column : Nat) : Cursor := ⟨column, t.drop column⟩

/-- The longest run of characters of a class, and the place behind it. -/
def takeWhile (p : CodePoint → Bool) (c : Cursor) : Text × Cursor :=
  let run := c.rest.takeWhile p
  (run, ⟨c.column + run.length, c.rest.dropWhile p⟩)

/-- The place behind a character, if it comes next. -/
def skip? (ch : Char) (c : Cursor) : Option Cursor :=
  match c.rest with
  | x :: rest => if x = .scalar ch then some ⟨c.column + 1, rest⟩ else none
  | [] => none

/-- The error of finding something else than expected. -/
def unexpected (c : Cursor) (expected : Expected) : ParseError :=
  .unexpected c.column c.rest.head? expected

/-- The place behind a character that has to come next. -/
def skip (ch : Char) (c : Cursor) : Except ParseError Cursor :=
  match c.skip? ch with
  | some c => .ok c
  | none => .error (c.unexpected (.word [.scalar ch]))

/-- The character that was skipped came next. -/
theorem skip?_rest {ch : Char} {c c' : Cursor} (h : c.skip? ch = some c') :
    c.rest = .scalar ch :: c'.rest := by
  unfold skip? at h
  split at h
  · split at h
    · cases h; simp_all
    · cases h
  · cases h

/-- So did the one that had to. -/
theorem skip_rest {ch : Char} {c c' : Cursor} (h : c.skip ch = .ok c') :
    c.rest = .scalar ch :: c'.rest := by
  unfold skip at h
  split at h
  · next hs => cases h; exact skip?_rest hs
  · cases h

/-- Skipping a character leaves a shorter rest. -/
theorem rest_lt_of_skip? {ch : Char} {c c' : Cursor} (h : c.skip? ch = some c') :
    c'.rest.length < c.rest.length := by
  simp [skip?_rest h]

end Cursor

end UriTemplate
