import UriTemplate.Resolver.Basic
import UriTemplate.Resolver.Scalar

/-! # Configuration documents

A configuration is written as a document of lines `key: value`.  A key without a value on
its line takes the lines below it that are indented further as a block of its own, which is
null if there are none.  Blank lines and lines that hold only a comment are skipped.  A
document without any line is null, and one that begins with a line without a key is that line
as a value. -/

namespace UriTemplate

namespace Document

/-- A line that counts: how far it is indented, and the text of it. -/
structure Line where
  indent : Nat
  text : Text
deriving DecidableEq

/-- The characters that end a line. -/
def isBreak (c : CodePoint) : Bool :=
  c.within [(0x0A, 0x0A), (0x0D, 0x0D), (0x85, 0x85), (0x2028, 0x2029)]

/-- The lines of a document that count. -/
def lines (t : Text) : List Line :=
  (t.splitOnP isBreak).filterMap fun line =>
    let text := trimBlanks line
    if text.isEmpty || text.head? == some (.scalar '#') then none
    else some ⟨(line.takeWhile (· == blank)).length, text⟩

/-- What stands behind the colon that ends a key: a blank or nothing follows such a colon. -/
def behindColon? : Text → Option Text
  | [.scalar ':'] => some []
  | .scalar ':' :: .scalar ' ' :: rest => some (trimBlanks rest)
  | _ => none

/-- A plain key and what stands behind its colon.  There is none in a comment. -/
def splitKey? (apart : Bool) : Text → Option (Text × Text)
  | [] => none
  | c :: rest => match behindColon? (c :: rest) with
    | some value => some ([], value)
    | none =>
      if apart && c = .scalar '#' then none
      else (splitKey? (c == blank) rest).map fun (key, value) => (c :: key, value)

/-- The key of a line and what stands behind it. -/
def keyed? : Text → Option (Except Fault Value × Text)
  | .scalar '\'' :: rest =>
    -- a quoted key is a text, whatever stands in it
    let (key, behind) := unquote rest
    (behindColon? (trimBlanks behind)).map fun value => (.ok (.text key), value)
  | t => (splitKey? true t).map fun (key, value) => (plain (trimBlanks key), value)

mutual

/-- The value of a block of lines: a mapping, or the scalar on its first line. -/
def block : List Line → Except Fault Value
  | [] => .ok .null
  | l :: ls =>
    -- the first line decides what the whole block is
    if (keyed? l.text).isNone then scalar l.text
    else (entries (l :: ls)).map fun es => .map (Entries.ofPairs es)
termination_by ls => (ls.length, 1)

/-- The entries of a block, each with the lines below it that are indented further. -/
def entries : List Line → Except Fault (List (Value × Value))
  | [] => .ok []
  | l :: ls => do
    let below := ls.takeWhile fun m => l.indent < m.indent
    let rest := ls.dropWhile fun m => l.indent < m.indent
    match keyed? l.text with
    -- a line without a key below an entry is left out
    | none => entries rest
    | some (key, value) =>
      let key ← key
      let value ← if (uncomment value).isEmpty then block below else scalar value
      return (key, value) :: (← entries rest)
termination_by ls => (ls.length, 0)
decreasing_by
  · exact .left _ _ (Nat.lt_succ_of_le (List.dropWhile_sublist _).length_le)
  · exact .left _ _ (Nat.lt_succ_of_le (List.dropWhile_sublist _).length_le)
  · -- the lines below are some of those that follow
    exact .left _ _ (Nat.lt_succ_of_le (List.takeWhile_sublist _).length_le)

end

/-- The value of a document. -/
def read (t : Text) : Except Fault Value := block (lines t)

end Document

namespace Resolver

/-- Loads the templates of a configuration document. -/
def ofDocument (t : Text) : Except Fault Resolver := do
  ofValue (← Document.read t)

/-- Refuses to load from a path that is not set or leads nowhere. -/
def ofMissingPath (path : Option Text) : Except Fault Resolver :=
  .error (.config (.noEnvironment path))

end Resolver

end UriTemplate
