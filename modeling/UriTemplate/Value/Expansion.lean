import UriTemplate.Value.LooseOperator

/-! # Expansion of values

Templates, contexts and the pieces of an expansion as they come from a caller: values that
have to turn out to be what is needed before the expansion itself can begin. -/

namespace UriTemplate.Value

/-- Expands a template where the names of a context are bound. -/
def expandTemplate (t : Template) (context : Value) : Except Fault Text := do
  let c ← Context.ofValue context
  (t.expand c.look).mapError .expansion

/-- Whether a fault is that of a text that is no template, or of a template that cannot be
    expanded. -/
def isUnusable (f : Fault) : Bool := f.kind == .templateSyntax || f.kind == .expansion

/-- Answers nothing for a template that is not usable.  Other faults remain. -/
def orNone {α : Type} : Except Fault α → Except Fault (Option α)
  | .ok a => .ok (some a)
  | .error f => if isUnusable f then .ok none else .error f

/-- What a name is bound to in a value that is used as a context without being made one. -/
def look (context : Value) (name : Text) : Binding Value :=
  -- the value is asked for the name just as it is, and what stands there is not converted
  match context.entries? with
  | none => .foreign
  | some entries => match Entries.get? (text name) entries with
    | none => .unbound
    | some null => .unbound
    | some (item i) => .item i
    | some _ => .foreign

/-- Expands an expression; the context is used as it is. -/
def expandExpression (expression context : Value) : Except Fault Text :=
  match expression with
  | node (.expression e) => (e.expand context.look).mapError .expansion
  | looseExpression specs o => o.expand context.look specs
  | _ => .error (.misuse .missingAttribute)

/-- Expands a part; the context is used as it is. -/
def expandPart (part context : Value) : Except Fault Text :=
  match part with
  | node (.literal l) => .ok l.text
  | _ => part.expandExpression context

/-- Expands a template, or the template that a text is parsed to. -/
def expand (template context : Value) : Except Fault Text :=
  match template with
  | node (.template t) => expandTemplate t context
  | looseTemplate parts => do
    let c ← Context.ofValue context
    -- the context is made once, for all parts
    return (← parts.mapM fun part => part.expandPart c.toValue).flatten
  | v => do
    let t ← v.parse
    expandTemplate t context

/-- Writes a value for a variable under an operator.  That a collection is not cut, and
    that there is an item at all, is seen before the operator is. -/
def renderVariable (variableSpec value operator : Value) : Except Fault Text :=
  match variableSpec with
  -- an item under an operator is written; each other pairing has its own fault
  | node (.spec v) => match value, operator with
    | item i, .operator o => (v.render o i).mapError v.renderFault
    | item i, .looseOperator o => o.render v i
    | item (.atom _), _ => .error (.misuse .missingAttribute)
    | value, _ =>
      if v.limit?.isSome then
        .error (v.renderFault (.limitOnCollection value.kind))
      else match value with
        | item (.list _) => .error (.misuse .missingAttribute)
        | item (.assoc _) => .error (.misuse .missingAttribute)
        | _ => do throw (v.renderFault (.unsupported (← value.inspect)))
  | _ => .error (.misuse .missingAttribute)

/-- Encodes a text, or a byte string where only unreserved characters pass. -/
def encode (value : Value) (allowReserved : Bool) : Except Fault Text :=
  match value with
  | text t => (Percent.encode allowReserved t).mapError fun u => .misuse (.unencodable u)
  | bytes bs => if allowReserved then .error (.misuse .notText) else .ok (Percent.encodeBytes bs)
  | _ => .error (.misuse .notText)

/-- What a piece of a template is written as, or the symbol of an operator.  A text is taken
    as a pattern and filled with nothing. -/
def format : Value → Except Fault Value
  | operator o => .ok (text o.symbol)
  | looseOperator o => .ok o.symbol
  | text t => (t.fillNothing.map text).mapError fun e => .misuse (.unfilled e)
  | node n => (node n).toText.map text
  | looseExpression specs o => (looseExpression specs o).toText.map text
  | looseTemplate parts => (looseTemplate parts).toText.map text
  | abstractNode => .error (.misuse .abstract)
  | _ => .error (.misuse .missingAttribute)

end UriTemplate.Value
