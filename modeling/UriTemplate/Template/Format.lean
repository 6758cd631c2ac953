import UriTemplate.Template.Validation

/-! # The two written forms of templates

Every piece of a template has a canonical text, which for a whole template is the text it
is parsed from, and an inspection form, which messages use: the name of its kind and what
it was made of, in parentheses.

Both forms show the prefix lengths of a piece, and an integer with too many digits cannot be
written.  So a piece has these forms just if its prefix lengths are short enough. -/

namespace UriTemplate

/-! ## Canonical text -/

/-- A colon and the length, or an asterisk. -/
def Modifier.format : Modifier → Text
  | limit length => .scalar ':' :: Text.ofNat length.value
  | explode => "*".toText

/-- The name and its modifier. -/
def VarSpec.format (v : VarSpec) : Text :=
  v.name.text ++ (v.modifier.map Modifier.format).getD []

/-- The text of an operator and the variables, separated by commas, in braces. -/
def VarSpec.formatAll (operator : Text) (specs : List VarSpec) : Text :=
  .scalar '{' :: operator ++ ",".toText.intercalate (specs.map VarSpec.format) ++ [.scalar '}']

/-- The operator and the variables in braces. -/
def Expression.format (e : Expression) : Text :=
  VarSpec.formatAll ((e.operator.map Operator.symbol).getD []) e.specs

/-- The text of a literal, or the expression in braces. -/
def Part.format : Part → Text
  | literal l => l.text
  | expression e => e.format

/-- The texts of the parts, one after the other. -/
def Template.format (t : Template) : Text := t.parts.flatMap Part.format

/-- The canonical text of any piece. -/
def Node.format : Node → Text
  | limit length => (Modifier.limit length).format
  | explode => Modifier.explode.format
  | spec v => v.format
  | literal l => l.text
  | expression e => e.format
  | template t => t.format

/-! ## Inspection form -/

/-- A kind and its arguments, as in `Kind(a, b)`. -/
def Text.application (kind : String) (arguments : List Text) : Text :=
  kind.toText ++ "(".toText ++ Text.commaList arguments ++ ")".toText

/-- The inspection form of a modifier. -/
def Modifier.inspect : Modifier → Text
  | limit length => .application "Prefix" [Text.ofNat length.value]
  | explode => .application "Explode" []

/-- The inspection form of a variable. -/
def VarSpec.inspect (v : VarSpec) : Text :=
  .application "VariableSpec" (v.name.text.quoted :: (v.modifier.map Modifier.inspect).toList)

/-- The inspection form of a literal. -/
def Literal.inspect (l : Literal) : Text := .application "Literal" [l.text.quoted]

/-- The inspection form of an expression of these variables, with that of its operator. -/
def VarSpec.inspectAll (operator : Option Text) (specs : List VarSpec) : Text :=
  .application "Expression" (.bracketed (specs.map VarSpec.inspect) ::
    (operator.map ("operator=".toText ++ ·)).toList)

/-- The inspection form of an expression. -/
def Expression.inspect (e : Expression) : Text :=
  VarSpec.inspectAll (e.operator.map Operator.inspect) e.specs

/-- The inspection form of a part. -/
def Part.inspect : Part → Text
  | literal l => l.inspect
  | expression e => e.inspect

/-- The inspection form of a template. -/
def Template.inspect (t : Template) : Text :=
  .application "Template" [.bracketed (t.parts.map Part.inspect)]

/-- The inspection form of any piece. -/
def Node.inspect : Node → Text
  | limit length => (Modifier.limit length).inspect
  | explode => Modifier.explode.inspect
  | spec v => v.inspect
  | literal l => l.inspect
  | expression e => e.inspect
  | template t => t.inspect

/-! ## Lengths that can be written -/

/-- Whether the prefix length of a variable, if it has one, has few enough digits to be
    written. -/
def VarSpec.isWritable (v : VarSpec) : Bool :=
  match v.limit? with
  | some n => n < Nat.pow 10 Text.digitLimit
  | none => true

/-- Whether the prefix lengths of an expression can be written. -/
def Expression.isWritable (e : Expression) : Bool := e.specs.all VarSpec.isWritable

/-- Whether the prefix lengths of a part can be written. -/
def Part.isWritable : Part → Bool
  | literal _ => true
  | expression e => e.isWritable

/-- Whether the prefix lengths of a template can be written. -/
def Template.isWritable (t : Template) : Bool := t.parts.all Part.isWritable

/-- Whether the prefix lengths of any piece can be written. -/
def Node.isWritable : Node → Bool
  | limit length => length.value < Nat.pow 10 Text.digitLimit
  | explode => true
  | spec v => v.isWritable
  | literal _ => true
  | expression e => e.isWritable
  | template t => t.isWritable

end UriTemplate
