import UriTemplate.Template.Basic

/-! # Validation

The pieces of a template are made from texts and numbers that have to be checked first.
The checks stand here, with the reasons for a refusal; a refused value is carried in the
reason as messages show it. -/

namespace UriTemplate

/-- Why a piece of a template, or an operator, or a set of templates, is refused. -/
inductive ValidationError where
  | lengthNotPositive (value : Text)
  | invalidName (value : Text)
  | invalidModifier (value : Text)
  | emptyLiteral
  /-- A literal with characters that literals must not have, in increasing order. -/
  | invalidLiteral (text : Text) (characters : List CodePoint)
  | noVariables
  | invalidVariable (value : Text)
  | invalidOperator (value : Text)
  | invalidPart (value : Text)
  | unknownOperator (value : Text)
  /-- Templates that refer to each other in a circle, from the first to the repeated one. -/
  | circularReference (names : List Text)
deriving DecidableEq

/-- Members of a list, in brackets and separated by commas. -/
def Text.bracketed (members : List Text) : Text :=
  "[".toText ++ Text.commaList members ++ "]".toText

/-- The wording of a refusal. -/
def ValidationError.message : ValidationError → Text
  | lengthNotPositive value => "Prefix length must be a positive integer: ".toText ++ value
  | invalidName value => "Invalid variable name: ".toText ++ value
  | invalidModifier value => "Invalid modifier: ".toText ++ value
  | emptyLiteral => "Literal text cannot be empty".toText
  | invalidLiteral text characters =>
    "Invalid literal characters in ".toText ++ text.quoted ++ ": ".toText ++
      Text.bracketed (characters.map fun c => Text.quoted [c])
  | noVariables => "Expressions require at least one variable".toText
  | invalidVariable value => "Invalid variable: ".toText ++ value
  | invalidOperator value => "Invalid operator: ".toText ++ value
  | invalidPart value => "Invalid template part: ".toText ++ value
  | unknownOperator value => "Unknown operator: ".toText ++ value
  | circularReference names =>
    "Circular template reference: ".toText ++ " -> ".toText.intercalate names

/-- A prefix length from an integer. -/
def MaxLength.ofInt (n : Int) : Except ValidationError MaxLength :=
  if h : 0 < n.toNat then .ok ⟨n.toNat, h⟩ else .error (.lengthNotPositive (Text.ofInt n))

/-- A variable name from a text. -/
def VarName.ofText (t : Text) : Except ValidationError VarName :=
  if h : t.isVarname = true then .ok ⟨t, h⟩ else .error (.invalidName t.quoted)

/-- The characters of a text that a literal must not have, each once, in increasing order. -/
def Text.invalidLiterals (t : Text) : List CodePoint :=
  ((t.filter fun c => !c.isLiteral).eraseDups).mergeSort fun a b => a.toNat ≤ b.toNat

/-- A literal from a text. -/
def Literal.ofText (t : Text) : Except ValidationError Literal :=
  if hne : t = [] then .error .emptyLiteral
  else if h : ∀ c ∈ t, c.isLiteral = true then .ok ⟨t, hne, h⟩
  else .error (.invalidLiteral t t.invalidLiterals)

/-- An expression from its variables and operator. -/
def Expression.ofVariables (specs : List VarSpec) (operator : Option Operator) :
    Except ValidationError Expression :=
  if h : specs = [] then .error .noVariables else .ok ⟨specs, operator, h⟩

/-- A text is made a name just if it is one. -/
theorem VarName.ofText_eq_ok_iff {t : Text} :
    (∃ n, VarName.ofText t = .ok n) ↔ t.isVarname = true := by
  unfold VarName.ofText
  split <;> simp_all

/-- A text is made a literal just if it is not empty and has the characters of literals alone. -/
theorem Literal.ofText_eq_ok_iff {t : Text} :
    (∃ l, Literal.ofText t = .ok l) ↔ t ≠ [] ∧ ∀ c ∈ t, c.isLiteral = true := by
  unfold Literal.ofText
  split
  · simp_all
  · split <;> simp_all

end UriTemplate
