import UriTemplate.Item
import UriTemplate.Percent
import UriTemplate.Template.Format

/-! # Expansion

Expanding a template copies its literals and puts values in the place of its expressions.
An expression writes its defined variables in order, with the operator's separator between
them and the operator's first text before them; undefined variables leave nothing behind,
and neither does an expression without defined variables.

An expansion can fail only in an expression: because its operator is set aside, because
a prefix length is beyond the limit, or at its first variable that cannot be written. -/

namespace UriTemplate

/-- Why the value of one variable cannot be written. -/
inductive RenderError where
  /-- A prefix length was asked of an item that is not a single text. -/
  | limitOnCollection (kind : String)
  /-- A surrogate would have to be encoded. -/
  | unencodable (cause : Unencodable)
  /-- The item has no shape. -/
  | shapeless
  /-- The value, shown here, is no item. -/
  | unsupported (value : Text)
deriving DecidableEq

/-- Why an expression cannot be expanded. -/
inductive ExpansionError where
  /-- The operator, whose symbol is shown here, is set aside for extensions. -/
  | reservedOperator (symbol expression : Text)
  /-- The prefix length of a variable is beyond the limit. -/
  | limitTooLarge (name : Text) (length : Nat)
  /-- A variable cannot be written. -/
  | rendering (name : Text) (cause : RenderError)
  /-- A variable is bound to something that is no item. -/
  | foreign (name : Text)
  /-- A refusal should show a prefix length that has too many digits to be written. -/
  | oversizedLength
deriving DecidableEq

/-- The greatest prefix length of the standard. -/
def greatestLimit : Nat := 9999

/-- The wording of an error. -/
def ExpansionError.message : ExpansionError → Text
  | reservedOperator symbol expression =>
    "Operator ".toText ++ symbol ++ " is reserved and cannot be expanded: ".toText ++ expression
  | limitTooLarge name length =>
    "Prefix length for ".toText ++ name.quoted ++ " exceeds ".toText ++
      Text.ofNat greatestLimit ++ ": ".toText ++ Text.ofNat length
  | rendering name (.limitOnCollection kind) =>
    "Prefix modifier cannot be applied to ".toText ++ kind.toText ++ " value of ".toText ++
      name.quoted
  | rendering name (.unencodable cause) =>
    "Value of ".toText ++ name.quoted ++ " cannot be encoded as UTF-8: ".toText ++ cause.message
  | rendering name .shapeless => "No text for the item of ".toText ++ name.quoted
  | rendering name (.unsupported value) =>
    "Unsupported value for ".toText ++ name.quoted ++ ": ".toText ++ value
  | foreign name => "No item is bound to ".toText ++ name.quoted
  | oversizedLength => "Exceeds the limit of 4300 digits for a prefix length".toText

variable {β : Type}

/-! ## One variable -/

namespace Operator

/-- A text under a name, for operators that write names: the name, and after an equals sign
    the text; an empty text leaves the name with what the operator writes after it. -/
def withName (o : Operator) (name value : Text) : Text :=
  if o.named then
    if value = [] then name ++ o.ifEmpty else name ++ .scalar '=' :: value
  else value

/-- A member of an association that is expanded member by member. -/
def member (o : Operator) (key value : Text) : Text :=
  if o.named then o.withName key value else key ++ .scalar '=' :: value

/-- The texts of the defined variables of an expression, put together. -/
def join (o : Operator) (texts : List Text) : Text :=
  if texts = [] then [] else o.first ++ o.separator.intercalate texts

end Operator

/-- Encodes the two texts of a pair. -/
def encodePair (allowReserved : Bool) (p : Text × Text) : Except Unencodable (Text × Text) := do
  let key ← Percent.encode allowReserved p.1
  let value ← Percent.encode allowReserved p.2
  return (key, value)

/-- What the prefix length of a variable leaves of a text. -/
def VarSpec.cut (v : VarSpec) (t : Text) : Text :=
  match v.limit? with
  | some n => t.take n
  | none => t

/-- Writes a single text: cut to the prefix length first, then encoded. -/
def VarSpec.renderAtom (v : VarSpec) (o : Operator) (t : Text) : Except Unencodable Text := do
  -- the length counts characters of the value, not of what they are encoded to
  let value ← Percent.encode o.allowReserved (v.cut t)
  return o.withName v.name.text value

/-- Writes a list: its members separated by commas, or one by one. -/
def VarSpec.renderList (v : VarSpec) (o : Operator) (ts : List Text) :
    Except Unencodable Text := do
  let values ← ts.mapM (Percent.encode o.allowReserved)
  return if v.isExploded then o.separator.intercalate (values.map (o.withName v.name.text))
    else o.withName v.name.text (",".toText.intercalate values)

/-- Writes an association: keys and values separated by commas, or pair by pair. -/
def VarSpec.renderAssoc (v : VarSpec) (o : Operator) (pairs : Assoc) :
    Except Unencodable Text := do
  let pairs ← pairs.entries.mapM (encodePair o.allowReserved)
  return if v.isExploded then o.separator.intercalate (pairs.map fun p => o.member p.1 p.2)
    else o.withName v.name.text
      (",".toText.intercalate (pairs.map fun p => p.1 ++ .scalar ',' :: p.2))

/-- Writes the item of a variable under an operator.  Only single texts can be cut. -/
def VarSpec.render (v : VarSpec) (o : Operator) : Item β → Except RenderError Text
  | .atom t => (v.renderAtom o t).mapError .unencodable
  | item =>
    if v.limit?.isSome then .error (.limitOnCollection item.kind)
    else match item with
      | .list ts => (v.renderList o ts).mapError .unencodable
      | .assoc pairs => (v.renderAssoc o pairs).mapError .unencodable
      | _ => .error .shapeless

/-! ## Expressions and templates -/

/-- What a name is bound to: nothing, an item, or something else. -/
inductive Binding (β : Type) where
  | unbound
  | item (i : Item β)
  | foreign

/-- The text of a variable where names are bound by `look`, if the variable is defined. -/
def VarSpec.expand? (look : Text → Binding β) (o : Operator) (v : VarSpec) :
    Except ExpansionError (Option Text) :=
  match look v.name.text with
  | .unbound => .ok none
  | .foreign => .error (.foreign v.name.text)
  | .item i =>
    if i.isDefined then ((v.render o i).map some).mapError (.rendering v.name.text)
    else .ok none

/-- A refusal that shows these variables.  It cannot be worded if one of their prefix lengths
    cannot be written. -/
def ExpansionError.showing (specs : List VarSpec) (e : ExpansionError) : ExpansionError :=
  if specs.all VarSpec.isWritable then e else .oversizedLength

/-- Refuses too large a prefix length. -/
def VarSpec.checkLimit (v : VarSpec) : Except ExpansionError Unit :=
  match v.limit? with
  | some n =>
    if greatestLimit < n then .error ((ExpansionError.limitTooLarge v.name.text n).showing [v])
    else .ok ()
  | none => .ok ()

namespace Expression

/-- The operator that an expression is expanded with. -/
def effectiveOperator (e : Expression) : Operator := e.operator.getD .simple

/-- Refuses an expression whose operator is set aside or that has too large a prefix
    length, whatever its variables are bound to. -/
def check (e : Expression) : Except ExpansionError Unit :=
  if e.effectiveOperator.isReserved then
    .error ((ExpansionError.reservedOperator e.effectiveOperator.symbol.quoted e.format).showing
      e.specs)
  else e.specs.forM VarSpec.checkLimit

/-- Expands an expression where names are bound by `look`. -/
def expand (look : Text → Binding β) (e : Expression) : Except ExpansionError Text := do
  e.check
  -- the first variable that cannot be written decides, in the order of the expression
  let texts ← e.specs.mapM (VarSpec.expand? look e.effectiveOperator)
  return e.effectiveOperator.join (texts.filterMap id)

end Expression

/-- Expands a part: a literal stands for itself. -/
def Part.expand (look : Text → Binding β) : Part → Except ExpansionError Text
  | literal l => .ok l.text
  | expression e => e.expand look

/-- Expands a template where names are bound by `look`. -/
def Template.expand (look : Text → Binding β) (t : Template) : Except ExpansionError Text :=
  (t.parts.mapM (Part.expand look)).map List.flatten

end UriTemplate
