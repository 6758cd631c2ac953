import UriTemplate.CharClass
import UriTemplate.Operator

/-! # Templates

A template is a sequence of literal texts and expressions; an expression names the
variables whose values take its place.  The types carry what every template satisfies: a
prefix length is positive, a name is a variable name, a literal is a nonempty text of
literal characters, and an expression has a variable. -/

namespace UriTemplate

/-- The number of characters that a prefix modifier keeps. -/
structure MaxLength where
  value : Nat
  positive : 0 < value
deriving DecidableEq

/-- What stands after a variable name: a prefix length, or the request to expand the
    members of a collection one by one. -/
inductive Modifier where
  | limit (length : MaxLength)
  | explode
deriving DecidableEq

/-- The name of a variable. -/
structure VarName where
  text : Text
  valid : text.isVarname = true
deriving DecidableEq

/-- A variable of an expression. -/
structure VarSpec where
  name : VarName
  modifier : Option Modifier
deriving DecidableEq

/-- The length to which the value of a variable is cut. -/
def VarSpec.limit? (v : VarSpec) : Option Nat :=
  match v.modifier with
  | some (.limit length) => some length.value
  | _ => none

/-- Whether the members of a collection are expanded one by one. -/
def VarSpec.isExploded (v : VarSpec) : Bool := v.modifier == some .explode

/-- A text that is copied as it is. -/
structure Literal where
  text : Text
  nonempty : text ≠ []
  allowed : ∀ c ∈ text, c.isLiteral = true
deriving DecidableEq

/-- An expression: variables under an operator. -/
structure Expression where
  specs : List VarSpec
  operator : Option Operator
  nonempty : specs ≠ []
deriving DecidableEq

/-- Expressions are compared by their variables and the symbols of their operators. -/
instance : BEq Expression :=
  ⟨fun a b => a.specs == b.specs && a.operator == b.operator⟩

/-- A part of a template. -/
inductive Part where
  | literal (l : Literal)
  | expression (e : Expression)
deriving DecidableEq, BEq

/-- A template: its parts in order. -/
structure Template where
  parts : List Part
deriving DecidableEq, BEq

namespace Template

/-- The expressions of a template, in order. -/
def expressions (t : Template) : List Expression :=
  t.parts.filterMap fun
    | .literal _ => none
    | .expression e => some e

/-- Adds the names that are not yet among those seen. -/
def addNew (seen : List Text) (names : List Text) : List Text :=
  names.foldl (fun seen n => if seen.contains n then seen else seen ++ [n]) seen

/-- The names of the variables, each at its first appearance. -/
def variableNames (t : Template) : List Text :=
  addNew [] (t.expressions.flatMap fun e => e.specs.map (·.name.text))

end Template

/-- A piece of a template that can stand on its own as a value. -/
inductive Node where
  | limit (length : MaxLength)
  | explode
  | spec (v : VarSpec)
  | literal (l : Literal)
  | expression (e : Expression)
  | template (t : Template)
deriving DecidableEq, BEq

/-- A part as a value. -/
def Part.toNode : Part → Node
  | literal l => .literal l
  | expression e => .expression e

/-- A modifier as a value. -/
def Modifier.toNode : Modifier → Node
  | limit length => .limit length
  | explode => .explode

end UriTemplate
