import UriTemplate.Template.Parser
import UriTemplate.Value.Key

/-! # From values to the library's objects

The objects of this library are made from values: the pieces of templates, items and
operators.  Each conversion checks its arguments in a fixed order and reports the first
that does not serve. -/

namespace UriTemplate.Value

/-! ## Items -/

/-- The text of a single value: a text is its own, truth values and numbers are written. -/
def scalarText : Value → Except Fault Text
  | text t => .ok t
  | bool b => .ok (if b then "true".toText else "false".toText)
  | int n => intText n
  | float x => .ok x.toText
  | v => do throw (.mistyped (.unsupported (← v.inspect)))

/-- A pair of texts from an entry of a mapping. -/
def scalarPair (e : Value × Value) : Except Fault (Text × Text) := do
  let key ← e.1.toText
  let value ← e.2.scalarText
  return (key, value)

/-- The item that a value stands for.  A null value stands for none. -/
def toItem? : Value → Except Fault (Option (Item Value))
  | null => .ok none
  | item i => .ok (some i)
  | list vs => do return some (.list (← vs.mapM scalarText))
  | tuple vs => do return some (.list (← vs.mapM scalarText))
  -- any other mapping is an association, and what is none has to be a single value
  | v => match v.entries? with
    | some entries => do return some (.assoc (.ofPairs (← entries.mapM scalarPair)))
    | none => do return some (.atom (← v.scalarText))

/-- An atom from a text. -/
def toAtom : Value → Except Fault (Item Value)
  | text t => .ok (.atom t)
  | v => do throw (.mistyped (.atomNotText (← v.inspect)))

/-- A member of a list item. -/
def listMember : Value → Except Fault Text
  | text t => .ok t
  | v => do throw (.mistyped (.listNotText (← v.inspect)))

/-- A list item from the members of a value. -/
def toList (v : Value) : Except Fault (Item Value) := do
  return .list (← (← v.members).mapM listMember)

/-- An entry of an association. -/
def assocEntry : Value × Value → Except Fault (Text × Text)
  | (text k, text v) => .ok (k, v)
  | (k, v) => do throw (.mistyped (.assocNotText (← k.inspect) (← v.inspect)))

/-- Adds a pair to the entries of a mapping. -/
def addPair (entries : Entries Value Value) (pair : Value) :
    Except Fault (Entries Value Value) := do
  let (k, v) ← pair.unpair
  discard k.key
  return entries.put k v

/-- An association from a mapping, from another association, or from pairs. -/
def toAssoc : Value → Except Fault (Item Value)
  | item (.assoc pairs) => .ok (.assoc pairs)
  | v => do
    let entries ← match v.entries? with
      | some entries => pure entries
      -- the pairs are put in one by one, so that a later one with the same key counts
      | none => (← v.members).foldlM addPair []
    return .assoc (.ofPairs (← entries.mapM assocEntry))

/-! ## Pieces of templates -/

/-- A prefix length from a positive integer. -/
def toMaxLength : Value → Except Fault MaxLength
  | int n => match MaxLength.ofInt n with
    | .ok length => .ok length
    -- the refusal shows the integer, which may have too many digits for that
    | .error e => do
      discard (intText n)
      throw (.invalid e)
  | v => do throw (.invalid (.lengthNotPositive (← v.inspect)))

/-- A variable name from a text. -/
def toVarName : Value → Except Fault VarName
  | text t => (VarName.ofText t).mapError .invalid
  | v => do throw (.invalid (.invalidName (← v.inspect)))

/-- A modifier, or none for a null value. -/
def toModifier? : Value → Except Fault (Option Modifier)
  | null => .ok none
  | node (.limit length) => .ok (some (.limit length))
  | node .explode => .ok (some .explode)
  | v => do throw (.invalid (.invalidModifier (← v.inspect)))

/-- A variable from its name and its modifier. -/
def toVarSpec (name modifier : Value) : Except Fault VarSpec := do
  let name ← name.toVarName
  let modifier ← modifier.toModifier?
  return ⟨name, modifier⟩

/-- A literal from a text. -/
def toLiteral : Value → Except Fault Literal
  | text t => (Literal.ofText t).mapError .invalid
  | _ => .error (.invalid .emptyLiteral)

/-- A variable of an expression. -/
def asVarSpec : Value → Except Fault VarSpec
  | node (.spec v) => .ok v
  | v => do throw (.invalid (.invalidVariable (← v.inspect)))

/-- The operator of an expression, or none for a null value. -/
def asOperator? : Value → Except Fault (Option Operator)
  | null => .ok none
  | operator o => .ok (some o)
  | v => do throw (.invalid (.invalidOperator (← v.inspect)))

/-- An expression from the members of a value and an operator. -/
def toExpression (specs operator : Value) : Except Fault Value := do
  -- that there is a variable is seen before the variables and the operator are
  match ← specs.members with
  | [] => throw (.invalid .noVariables)
  | members =>
    let specs ← members.mapM asVarSpec
    match operator with
    | looseOperator o => return looseExpression specs o
    | v =>
      let e ← (Expression.ofVariables specs (← v.asOperator?)).mapError .invalid
      return node (.expression e)

/-- The part of a template that a value is, if its operator is not a loose one. -/
def part? : Value → Option Part
  | node (.literal l) => some (.literal l)
  | node (.expression e) => some (.expression e)
  | _ => none

/-- Refuses a value that cannot be a part of a template. -/
def checkPart : Value → Except Fault Unit
  | looseExpression _ _ => .ok ()
  | v => match v.part? with
    | some _ => .ok ()
    | none => do throw (.invalid (.invalidPart (← v.inspect)))

/-- A template from the members of a value. -/
def toTemplate (v : Value) : Except Fault Value := do
  let members ← v.members
  -- every member is looked at first, and then whether one is under a loose operator
  members.forM checkPart
  match members.mapM part? with
  | some parts => return node (.template ⟨parts⟩)
  | none => return looseTemplate members

/-- The template that a text is parsed to. -/
def parse : Value → Except Fault Template
  | text t => (Template.parse t).mapError .parse
  | v => .error (.mistyped (.unparsable v.typeText))

/-! ## Operators -/

/-- The operator with these parameters: a proper one if each has the type that expansion works
    with, and else a loose one. -/
def ofParameters (o : LooseOperator Value) : Value :=
  match o with
  | ⟨text symbol, tier, text first, text separator, bool named, text ifEmpty,
      bool allowReserved⟩ => match tier with
    | null => operator ⟨symbol, none, first, separator, named, ifEmpty, allowReserved⟩
    | text label =>
      operator ⟨symbol, some (.ofLabel label), first, separator, named, ifEmpty, allowReserved⟩
    | _ => looseOperator o
  | _ => looseOperator o

/-- The registered operator of a symbol. -/
def findOperator (v : Value) : Except Fault Operator := do
  -- the symbol is looked up, which takes a key
  discard v.key
  match v with
  | text t => match Operator.ofSymbol? t with
    | some o => return o
    | none => throw (.invalid (.unknownOperator t.quoted))
  | v => throw (.invalid (.unknownOperator (← v.inspect)))

/-- Whether a value is the symbol of a registered operator. -/
def isOperatorSymbol (v : Value) : Except Fault Bool := do
  discard v.key
  match v with
  | text t => return (Operator.ofSymbol? t).isSome
  | _ => return false

/-- Whether a value is a single character of a class.  A set may be asked for as well. -/
def isMember (p : CodePoint → Bool) : Value → Except Fault Bool
  | text [c] => .ok (p c)
  | set _ => .ok false
  | v => do
    discard v.key
    return false

/-- Whether a text is a variable name. -/
def isVarname : Value → Except Fault Bool
  | text t => .ok t.isVarname
  | bytes _ => .error (.misuse .notText)
  | _ => .error (.misuse .missingAttribute)

end UriTemplate.Value
