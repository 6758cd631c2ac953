import UriTemplate.Value.Conversion

/-! # Rules

The rules of the grammar by their names, as they are applied to a value at a column.  A text
is read by the parser.  What is no text can still be looked at member by member, which some
rules do before they search for a word: a sequence may have a run of characters that would be
a name, and a mapping is asked for its members by number.  Searching for a word is a fault
then, and so is cutting a run out of what is no sequence. -/

namespace UriTemplate

/-- The rules of the grammar. -/
inductive Rule where
  | template
  | part
  | literal
  | expression
  | operator
  | variableList
  | variableSpec
  | variableName
  | modifier
  | maxLength
deriving DecidableEq

/-- Why a rule does not apply to a value at a column. -/
inductive RuleError where
  | fault (f : Fault)
  /-- A member of something else than a text, or its end, is not what was expected. -/
  | unexpected (column : Nat) (found : Option Value) (shown : Option Text) (expected : Text)

/-- What a rule reads, and the column behind it. -/
abbrev Reading := Except RuleError (Value × Nat)

/-- The value of what an optional rule reads: null if there is nothing. -/
def Value.ofOption {α : Type} (f : α → Value) : Option α → Value
  | some a => f a
  | none => .null

/-- What a rule reads from a text. -/
def Rule.read (rule : Rule) (c : Cursor) : Except ParseError (Value × Cursor) :=
  match rule with
  | template => c.template.map fun (t, c) => (.node (.template t), c)
  | part => c.part.map fun (p, c) => (p.toValue, c)
  | literal => .ok (match c.literal? with
    | some (l, c) => (.node (.literal l), c)
    | none => (.null, c))
  | expression => c.expression?.map fun (e, c) =>
    (.ofOption (fun e => .node (.expression e)) e, c)
  | operator => .ok (let (o, c) := c.operator?; (.ofOption .operator o, c))
  | variableList => c.variableList.map fun (vs, c) =>
    (.list (vs.val.map fun v => .node (.spec v)), c)
  | variableSpec => c.variableSpec.map fun (v, c) => (.node (.spec v), c)
  | variableName => c.variableName.map fun (t, c) => (.text t, c)
  | modifier => c.modifier?.map fun (m, c) => (.ofOption (fun m => .node m.toNode) m, c)
  | maxLength => c.maxLength.map fun (n, c) => (.int n.value, c)

namespace Value

/-- A fault as the error of a rule. -/
def orFault {α : Type} (result : Except Fault α) : Except RuleError α := result.mapError .fault

/-! ## Members by number -/

/-- What is found at a number in a mapping. -/
def atNumber (entries : Entries Value Value) (n : Nat) : Except Fault Value :=
  match entries.get? (int n) with
  | some v => .ok v
  | none => .error (.misuse .missingKey)

/-- What is found at each number below the size of a value. -/
def numbered (v : Value) : Except Fault (List (Except Fault Value)) := do
  let members ← v.members
  match v with
  | text _ => return members.map .ok
  | bytes _ => return members.map .ok
  | list _ => return members.map .ok
  | tuple _ => return members.map .ok
  | v => match v.entries? with
    -- a mapping has as many numbers as it has keys, and perhaps nothing under them
    | some entries => return (List.range members.length).map (atNumber entries)
    | none => return members.map fun _ => .error (.misuse .notIterable)

/-- The longest run of members that are characters of a class. -/
def takeMembers (p : CodePoint → Bool) : List (Except Fault Value) → Except Fault (List Value)
  | [] => .ok []
  | v :: vs => do
    let v ← v
    if ← v.isMember p then
      let run ← takeMembers p vs
      return v :: run
    else return []

/-- The longest run of characters of a class from a column, cut out of the value. -/
def takeRun (p : CodePoint → Bool) (v : Value) (column : Nat) :
    Except Fault (Value × Nat) := do
  match v with
  | text t =>
    let (run, c) := (Cursor.ofText t column).takeWhile p
    return (text run, c.column)
  | v =>
    let run ← takeMembers p ((← v.numbered).drop column)
    let behind := column + run.length
    match v with
    | list _ => return (list run, behind)
    | tuple _ => return (tuple run, behind)
    -- the members of a byte string are numbers, and never characters of a class
    | bytes _ => return (bytes [], behind)
    | _ => throw (.misuse .notIterable)

/-- The error of finding something else than expected at a column. -/
def unexpected (v : Value) (column : Nat) (expected : Text) : Except RuleError (Value × Nat) := do
  match (← orFault v.numbered)[column]? with
  | none => throw (.unexpected column none none expected)
  | some member =>
    let found ← orFault member
    let shown ← orFault found.inspect
    throw (.unexpected column (some found) (some shown) expected)

/-! ## Rules -/

/-- The fault of searching for a word in what is no text. -/
def searchFault : Value → Fault
  | bytes _ => .misuse .notText
  | _ => .misuse .missingAttribute

/-- Applies a rule to a value that is no text. -/
def applyRule (v : Value) (rule : Rule) (column : Nat) : Reading :=
  match rule with
  | .template => do
    let members ← orFault v.numbered
    if column < members.length then throw (.fault v.searchFault)
    else return (node (.template ⟨[]⟩), column)
  | .literal => do
    let (_, behind) ← orFault (v.takeRun CodePoint.isLiteral column)
    -- a run of members cannot be made a literal, as it is no text
    if behind = column then return (null, column) else throw (.fault (.invalid .emptyLiteral))
  | .variableList | .variableSpec | .variableName => do
    let (_, behind) ← orFault (v.takeRun CodePoint.isVarchar column)
    if behind = column then v.unexpected column Expected.variableName.describe
    else throw (.fault v.searchFault)
  | .maxLength => do
    match (← orFault v.numbered)[column]? with
    | none => v.unexpected column Expected.maxLength.describe
    | some member =>
      let isDigit ← orFault ((← orFault member).isMember fun c => c.isDigit && c != .scalar '0')
      if isDigit then
        discard (orFault (v.takeRun CodePoint.isDigit column))
        throw (.fault (.misuse .notText))
      else v.unexpected column Expected.maxLength.describe
  | _ => throw (.fault v.searchFault)

/-- Applies a rule to a value at a column. -/
def readRule (v : Value) (rule : Rule) (column : Nat) : Reading :=
  match v with
  | text t => match rule.read (.ofText t column) with
    | .ok (value, c) => .ok (value, c.column)
    | .error e => .error (.fault (.parse e))
  | v => v.applyRule rule column

/-! ## Words -/

/-- Whether one of several words begins at a column of a text or a byte string, which are
    looked at in turn.  Past the end not even the empty word begins. -/
def anyBegins {α : Type} [BEq α] (word? : Value → Option (List α)) (members : List α)
    (column : Nat) : List Value → Except Fault Bool
  | [] => .ok false
  | v :: vs => match word? v with
    | some word =>
      -- the words are looked at in turn, and a word of the wrong type only if none began before it
      if column ≤ members.length && word.isPrefixOf (members.drop column) then .ok true
      else anyBegins word? members column vs
    | none => .error (.misuse .notText)

/-- The byte string that a value is. -/
def bytes? : Value → Option (List UInt8)
  | bytes bs => some bs
  | _ => none

/-- Whether one of several words begins at a column of a value. -/
def begins (v : Value) (column : Nat) (words : List Value) : Except Fault Bool :=
  match v with
  | text t => anyBegins text? t column words
  | bytes bs => anyBegins bytes? bs column words
  | v => .error v.searchFault

/-- Looks for a word, or for one of the words of a tuple, at a column of a value.  A match is
    worth one column; an optional word that is not there is nothing. -/
def expect (v : Value) (column : Nat) (word : Value) (optional : Bool) : Reading := do
  let words := match word with
    | tuple words => words
    | word => [word]
  if ← orFault (v.begins column words) then return (word, column + 1)
  else if optional then return (null, column)
  else match v, word with
    | text t, text w => throw (.fault (.parse ((Cursor.ofText t column).unexpected (.word w))))
    | v, word => v.unexpected column (← orFault word.inspect)

end Value

end UriTemplate
