import UriTemplate.Fault
import UriTemplate.Number.Shortest

/-! # Values

Templates, contexts and configurations are made from values whose type is known only when
they are used: numbers, texts, collections, and the objects of this library.  This module
holds the type, the two texts of a value and the properties that every value has.  A value
may hold the two abstract kinds, a bare item and an abstract node; asking them for what
they leave open is a fault.  The two differ in what they leave open: a bare item cannot be
inspected, while an abstract node has the inspection form of any object but no plain text.

Integers with too many digits cannot be written, and a value that shows one has neither text;
the prefix lengths in a piece of a template are shown in both.

An operator can be made with parameters of any type.  Such a loose operator, an expression
under one and a template with such an expression are values of their own, so that operators,
expressions and templates proper are free of them. -/

namespace UriTemplate

/-- A value of any type. -/
inductive Value where
  | null
  | bool (b : Bool)
  | int (n : Int)
  | float (x : Binary64)
  | text (t : Text)
  | bytes (bytes : List UInt8)
  | list (members : List Value)
  | tuple (members : List Value)
  | set (members : List Value)
  | map (entries : List (Value × Value))
  | item (i : Item Value)
  | context (entries : List (Value × Item Value))
  | node (n : Node)
  | abstractNode
  | operator (o : Operator)
  | looseOperator (o : LooseOperator Value)
  | looseExpression (specs : List VarSpec) (o : LooseOperator Value)
  | looseTemplate (parts : List Value)

instance : Inhabited Value := ⟨.null⟩

/-- The value of a part. -/
def Part.toValue (p : Part) : Value := .node p.toNode

namespace Value

/-! ## Types -/

/-- The name of a node's kind. -/
def nodeKind : Node → String
  | .limit _ => "Prefix"
  | .explode => "Explode"
  | .spec _ => "VariableSpec"
  | .literal _ => "Literal"
  | .expression _ => "Expression"
  | .template _ => "Template"

/-- The name of a value's type. -/
def kind : Value → String
  | null => "NoneType"
  | bool _ => "bool"
  | int _ => "int"
  | float _ => "float"
  | text _ => "str"
  | bytes _ => "bytes"
  | list _ => "list"
  | tuple _ => "tuple"
  | set _ => "set"
  | map _ => "dict"
  | item i => i.kind
  | context _ => "VariableContext"
  | node n => nodeKind n
  | abstractNode => "Node"
  | operator _ => "Operator"
  | looseOperator _ => "Operator"
  | looseExpression _ _ => "Expression"
  | looseTemplate _ => "Template"

/-- Where the types of the library's own objects are found. -/
def home : Value → String
  | item _ => "uritmpl.data."
  | context _ => "uritmpl.data."
  | node _ => "uritmpl.nodes."
  | abstractNode => "uritmpl.nodes."
  | operator _ => "uritmpl.operators."
  | looseOperator _ => "uritmpl.operators."
  | looseExpression _ _ => "uritmpl.nodes."
  | looseTemplate _ => "uritmpl.nodes."
  | _ => ""

/-- The type of a value as messages show it. -/
def typeText (v : Value) : Text :=
  "<class '".toText ++ v.home.toText ++ v.kind.toText ++ "'>".toText

/-! ## Texts -/

/-- Inspected members of a tuple: a single one keeps a comma. -/
def tupleText : List Text → Text
  | [t] => "(".toText ++ t ++ ",)".toText
  | ts => "(".toText ++ Text.commaList ts ++ ")".toText

/-- Inspected members of a set. -/
def setText : List Text → Text
  | [] => "set()".toText
  | ts => "\x7b".toText ++ Text.commaList ts ++ "\x7d".toText

/-- Inspected entries of a mapping. -/
def mapText (entries : List Text) : Text :=
  "\x7b".toText ++ Text.commaList entries ++ "\x7d".toText

/-- An integer as it is written, unless it has too many digits. -/
def intText (n : Int) : Except Fault Text :=
  match Text.ofInt? n with
  | some t => .ok t
  | none => .error (.misuse .oversized)

/-- Refuses to write prefix lengths with too many digits. -/
def checkLengths (areWritable : Bool) : Except Fault Unit :=
  if areWritable then .ok () else .error (.misuse .oversized)

/-- The inspection form of an object of a kind that has none of its own.  Where the object
    lies in memory is left out. -/
def objectText (v : Value) : Text :=
  "<".toText ++ v.home.toText ++ v.kind.toText ++ " object>".toText

/-- An inspected entry. -/
def entryText (key value : Text) : Text := key ++ ": ".toText ++ value

mutual

/-- The inspection form of a value, which messages use. -/
def inspect : Value → Except Fault Text
  | null => .ok "None".toText
  | bool b => .ok (if b then "True".toText else "False".toText)
  | int n => intText n
  | float x => .ok x.toText
  | text t => .ok t.quoted
  | bytes bs => .ok (Text.quotedBytes bs)
  | list vs => (inspectAll vs).map Text.bracketed
  | tuple vs => (inspectAll vs).map tupleText
  | set vs => (inspectAll vs).map setText
  | map entries => (inspectEntries entries).map mapText
  | item i => inspectItem i
  | context entries =>
    (inspectBindings entries).map fun ts => .application "VariableContext" [mapText ts]
  -- the lengths are looked at before anything is put together
  | node n => do
    checkLengths n.isWritable
    return n.inspect
  | abstractNode => .ok (objectText abstractNode)
  | operator o => .ok o.inspect
  | looseOperator o => inspectOperator o
  | looseExpression specs o => do
    checkLengths (specs.all VarSpec.isWritable)
    let operator ← inspectOperator o
    return VarSpec.inspectAll (some operator) specs
  | looseTemplate parts =>
    (inspectAll parts).map fun ts => .application "Template" [Text.bracketed ts]

/-- The inspection forms of the members of a collection. -/
def inspectAll : List Value → Except Fault (List Text)
  | [] => .ok []
  | v :: vs => do
    let t ← inspect v
    let ts ← inspectAll vs
    return t :: ts

/-- The inspection forms of the entries of a mapping. -/
def inspectEntries : List (Value × Value) → Except Fault (List Text)
  | [] => .ok []
  | (k, v) :: rest => do
    let key ← inspect k
    let value ← inspect v
    let ts ← inspectEntries rest
    return entryText key value :: ts

/-- The inspection form of an item.  A bare item has none. -/
def inspectItem : Item Value → Except Fault Text
  | .atom t => .ok (.application "Atom" [t.quoted])
  | .list ts => .ok (.application "List" [Text.bracketed (ts.map Text.quoted)])
  | .assoc pairs => .ok (.application "Assoc"
      [mapText (pairs.entries.map fun p => entryText p.1.quoted p.2.quoted)])
  | .bare _ => .error (.misuse .abstract)

/-- The inspection form of a loose operator. -/
def inspectOperator : LooseOperator Value → Except Fault Text
  -- only the symbol is shown, however the other parameters look
  | ⟨symbol, _, _, _, _, _, _⟩ => (inspect symbol).map Operator.lookup

/-- The inspection forms of the entries of a context. -/
def inspectBindings : List (Value × Item Value) → Except Fault (List Text)
  | [] => .ok []
  | (k, i) :: rest => do
    let key ← inspect k
    let value ← inspectItem i
    let ts ← inspectBindings rest
    return entryText key value :: ts

end

mutual

/-- The plain text of a value: for a text the text itself, for a piece of a template and
    for an operator what it is written as, and otherwise the inspection form.  An abstract
    node leaves open what it is written as. -/
def toText : Value → Except Fault Text
  | text t => .ok t
  | node n => do
    checkLengths n.isWritable
    return n.format
  | abstractNode => .error (.misuse .abstract)
  | operator o => .ok o.symbol
  -- a loose operator is written as its symbol, and only a text can be given back
  | looseOperator o => match o.symbol with
    | text t => .ok t
    | _ => .error (.misuse .notText)
  | looseExpression specs o => do
    checkLengths (specs.all VarSpec.isWritable)
    -- inside an expression the symbol is written whatever it is
    let symbol ← symbolText o
    return VarSpec.formatAll symbol specs
  | looseTemplate parts => (toTexts parts).map List.flatten
  | v => v.inspect

/-- The plain text of the symbol of a loose operator. -/
def symbolText : LooseOperator Value → Except Fault Text
  | ⟨symbol, _, _, _, _, _, _⟩ => toText symbol

/-- The plain texts of several values. -/
def toTexts : List Value → Except Fault (List Text)
  | [] => .ok []
  | v :: vs => do
    let t ← toText v
    let ts ← toTexts vs
    return t :: ts

end

/-- The check lets through just what can be written. -/
theorem checkLengths_eq_ok_iff {areWritable : Bool} :
    checkLengths areWritable = .ok () ↔ areWritable = true := by
  cases areWritable
  · exact iff_of_false nofun nofun
  · exact iff_of_true rfl rfl

/-- A piece whose prefix lengths can be written has its inspection form. -/
theorem inspect_node {n : Node} (h : n.isWritable = true) : (node n).inspect = .ok n.inspect := by
  rw [inspect, checkLengths_eq_ok_iff.mpr h]
  rfl

/-- It has its canonical text as its plain text. -/
theorem toText_node {n : Node} (h : n.isWritable = true) : (node n).toText = .ok n.format := by
  rw [toText, checkLengths_eq_ok_iff.mpr h]
  rfl

/-- The text that a value is. -/
def text? : Value → Option Text
  | text t => some t
  | _ => none

/-! ## Members and truth -/

/-- The members of an item. -/
def itemMembers? : Item Value → Option (List Value)
  | .list ts => some (ts.map text)
  | .assoc pairs => some (pairs.entries.keys.map text)
  | _ => none

/-- The members of a value, in order: the characters of a text, the numbers of a byte
    string, the keys of a mapping or an association, the parts of a template. -/
def members : Value → Except Fault (List Value)
  | text t => .ok (t.map fun c => text [c])
  | bytes bs => .ok (bs.map fun b => int b.toNat)
  | list vs => .ok vs
  | tuple vs => .ok vs
  | set vs => .ok vs
  | map entries => .ok (entries.map (·.1))
  | item i => match itemMembers? i with
    | some vs => .ok vs
    | none => .error (.misuse .notIterable)
  | context entries => .ok (entries.map (·.1))
  | node (.template t) => .ok (t.parts.map Part.toValue)
  | looseTemplate parts => .ok parts
  | _ => .error (.misuse .notIterable)

/-- The two members of a pair. -/
def unpair (v : Value) : Except Fault (Value × Value) := do
  -- a text of two characters is a pair as well
  match ← v.members with
  | [a, b] => return (a, b)
  | _ => throw (.misuse .notAPair)

/-- The entries of a mapping. -/
def entries? : Value → Option (List (Value × Value))
  | map entries => some entries
  | context entries => some (entries.map fun e => (e.1, item e.2))
  | _ => none

/-- Whether a value counts as empty: zero, false, and everything that has no members. -/
def isEmpty : Value → Bool
  | null => true
  | bool b => !b
  | int n => n == 0
  -- neither an infinity nor what is not a number is zero
  | float (.finite _ m _) => m == 0
  | text t => t.isEmpty
  | bytes bs => bs.isEmpty
  | list vs => vs.isEmpty
  | tuple vs => vs.isEmpty
  | set vs => vs.isEmpty
  | map entries => entries.isEmpty
  | item (.list ts) => ts.isEmpty
  | item (.assoc pairs) => pairs.entries.isEmpty
  | context entries => entries.isEmpty
  | node (.template t) => t.parts.isEmpty
  | looseTemplate parts => parts.isEmpty
  | _ => false

end Value

end UriTemplate
