import UriTemplate.Context

/-! # Loose operators

Expansion under an operator whose parameters are values of any type.  It goes like expansion
under other operators: what stands between values has to be a text once values are put
together, what stands in front of them once there are any, and what follows an empty value's
name once there is one.  Every value can say whether it counts as true, which is all that is
asked of the other parameters. -/

namespace UriTemplate

/-- Why a value cannot be written for a variable, as a fault. -/
def VarSpec.renderFault (v : VarSpec) : RenderError → Fault
  | .unencodable cause => .misuse (.unencodable cause)
  | e => .expansion (.rendering v.name.text e)

namespace LooseOperator

/-- The operator is set aside for extensions. -/
def isReserved (o : LooseOperator Value) : Bool :=
  match o.tier with
  | .text label => Tier.ofLabel label == .reserved
  | _ => false

/-- Whether values are written as `name=value`. -/
def isNamed (o : LooseOperator Value) : Bool := !o.named.isEmpty

/-- Whether reserved characters and percent-encoded triplets pass unencoded. -/
def allowsReserved (o : LooseOperator Value) : Bool := !o.allowReserved.isEmpty

/-- The result of encoding, with a surrogate that is in the way as a fault. -/
def encoded {α : Type} (result : Except Unencodable α) : Except Fault α :=
  result.mapError fun u => .misuse (.unencodable u)

/-- A text under a name, for operators that write names. -/
def withName (o : LooseOperator Value) (name value : Text) : Except Fault Text :=
  if o.isNamed then
    -- what follows the name of an empty value is looked at only if there is one
    if value = [] then match o.ifEmpty with
      | .text t => .ok (name ++ t)
      | _ => .error (.misuse .notText)
    else .ok (name ++ .scalar '=' :: value)
  else .ok value

/-- A member of an association that is expanded member by member. -/
def member (o : LooseOperator Value) (key value : Text) : Except Fault Text :=
  if o.isNamed then o.withName key value else .ok (key ++ .scalar '=' :: value)

/-- Puts texts together with the separator between them.  The separator is looked at before
    the texts are made. -/
def intercalate (o : LooseOperator Value) (texts : List (Except Fault Text)) :
    Except Fault Text :=
  match o.separator with
  | .text separator => do return separator.intercalate (← texts.mapM id)
  | .bytes _ => .error (.misuse .notText)
  | _ => .error (.misuse .missingAttribute)

/-- The texts of the defined variables of an expression, put together. -/
def join (o : LooseOperator Value) (texts : List Text) : Except Fault Text :=
  if texts = [] then .ok []
  else do
    let joined ← o.intercalate (texts.map .ok)
    match o.first with
    | .text first => return first ++ joined
    | _ => throw (.misuse .notText)

/-- Writes a single text. -/
def renderAtom (o : LooseOperator Value) (v : VarSpec) (t : Text) : Except Fault Text := do
  let value ← encoded (Percent.encode o.allowsReserved (v.cut t))
  o.withName v.name.text value

/-- Writes a list. -/
def renderList (o : LooseOperator Value) (v : VarSpec) (ts : List Text) : Except Fault Text := do
  let values ← encoded (ts.mapM (Percent.encode o.allowsReserved))
  if v.isExploded then o.intercalate (values.map (o.withName v.name.text))
  else o.withName v.name.text (",".toText.intercalate values)

/-- Writes an association. -/
def renderAssoc (o : LooseOperator Value) (v : VarSpec) (pairs : Assoc) : Except Fault Text := do
  let pairs ← encoded (pairs.entries.mapM (encodePair o.allowsReserved))
  if v.isExploded then o.intercalate (pairs.map fun p => o.member p.1 p.2)
  else
    let flat := pairs.map fun p => p.1 ++ .scalar ',' :: p.2
    o.withName v.name.text (",".toText.intercalate flat)

/-- Writes the item of a variable.  Only single texts can be cut. -/
def render (o : LooseOperator Value) (v : VarSpec) : Item Value → Except Fault Text
  | .atom t => o.renderAtom v t
  | i =>
    if v.limit?.isSome then .error (v.renderFault (.limitOnCollection i.kind))
    else match i with
      | .list ts => o.renderList v ts
      | .assoc pairs => o.renderAssoc v pairs
      | _ => .error (v.renderFault .shapeless)

/-- The text of a variable where names are bound by `look`, if the variable is defined. -/
def expand? (o : LooseOperator Value) (look : Text → Binding Value) (v : VarSpec) :
    Except Fault (Option Text) :=
  match look v.name.text with
  | .unbound => .ok none
  | .foreign => .error (.expansion (.foreign v.name.text))
  | .item i =>
    if i.isDefined then match o.render v i with
      | .ok t => .ok (some t)
      | .error (.misuse (.unencodable cause)) =>
        -- within an expression the variable is named
        .error (.expansion (.rendering v.name.text (.unencodable cause)))
      | .error f => .error f
    else .ok none

/-- Expands an expression of these variables where names are bound by `look`. -/
def expand (o : LooseOperator Value) (look : Text → Binding Value) (specs : List VarSpec) :
    Except Fault Text := do
  if o.isReserved then
    -- the refusal shows the symbol and the expression, and both may fail
    let symbol ← o.symbol.inspect
    let expression ← (Value.looseExpression specs o).toText
    throw (.expansion (.reservedOperator symbol expression))
  (specs.forM VarSpec.checkLimit).mapError .expansion
  let texts ← specs.mapM (o.expand? look)
  o.join (texts.filterMap id)

end LooseOperator

end UriTemplate
