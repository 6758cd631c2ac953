import UriTemplate.Text.Quoted

/-! # Expression operators

An operator is the character after the opening brace of an expression.  It decides how the
values are put together: what stands in front of the first one and between two of them,
whether a value is written with its name, what follows the name of an empty value, and
which characters pass unencoded.  The registered operators are those of RFC 6570; five of
them are set aside for extensions, so that they can be parsed but not expanded. -/

namespace UriTemplate

/-- The group an operator belongs to: the level of the standard that introduced it, or the
    reserved ones.  Operators made for other uses may carry a label of their own. -/
inductive Tier where
  | level2
  | level3
  | reserved
  | other (label : Text)
deriving DecidableEq

namespace Tier

/-- The label of a tier. -/
def label : Tier → Text
  | level2 => "level2".toText
  | level3 => "level3".toText
  | reserved => "reserved".toText
  | other l => l

/-- The tier with a label. -/
def ofLabel (l : Text) : Tier :=
  if l = "level2".toText then level2
  else if l = "level3".toText then level3
  else if l = "reserved".toText then reserved
  else other l

/-- No label is lost: one that stands for no tier of the standard is kept as it is. -/
@[simp] theorem label_ofLabel (l : Text) : (ofLabel l).label = l := by
  unfold ofLabel
  -- the labels are tried one after the other
  split
  · simp_all [label]
  · split
    · simp_all [label]
    · split <;> simp_all [label]

end Tier

/-- An operator and the parameters of its expansion. -/
structure Operator where
  /-- What is written after the opening brace. -/
  symbol : Text
  tier : Option Tier
  /-- Written once, before the first value. -/
  first : Text := []
  /-- Written between two values. -/
  separator : Text := ",".toText
  /-- Whether values are written as `name=value`. -/
  named : Bool := false
  /-- Written after the name of an empty value. -/
  ifEmpty : Text := []
  /-- Whether reserved characters and percent-encoded triplets pass unencoded. -/
  allowReserved : Bool := false
deriving DecidableEq

namespace Operator

/-- Two operators are the same operator if they have the same symbol. -/
instance : BEq Operator := ⟨fun a b => a.symbol == b.symbol⟩

/-- Operators are compared by their symbols. -/
theorem beq_iff {a b : Operator} : (a == b) = true ↔ a.symbol = b.symbol := by
  change (a.symbol == b.symbol) = true ↔ _
  exact beq_iff_eq

/-- The operator is set aside for extensions. -/
def isReserved (o : Operator) : Bool := o.tier == some .reserved

/-- How values are expanded in an expression that has no operator. -/
def simple : Operator := { symbol := [], tier := none }

/-- An operator of the second level: reserved characters pass unencoded. -/
def passing (symbol : Char) (first : Text) : Operator :=
  { symbol := [.scalar symbol], tier := some .level2, first := first, allowReserved := true }

/-- An operator of the third level: its symbol stands before the first value. -/
def prefixing (symbol separator : Char) (named : Bool) (ifEmpty : Text) : Operator :=
  { symbol := [.scalar symbol], tier := some .level3, first := [.scalar symbol],
    separator := [.scalar separator], named := named, ifEmpty := ifEmpty }

/-- An operator that is set aside for extensions. -/
def setAside (symbol : Char) : Operator :=
  { symbol := [.scalar symbol], tier := some .reserved }

/-- The registered operators. -/
def registered : List Operator :=
  [passing '+' [], passing '#' "#".toText,
    prefixing '.' '.' false [], prefixing '/' '/' false [], prefixing ';' ';' true [],
    prefixing '?' '&' true "=".toText, prefixing '&' '&' true "=".toText,
    -- these have no meaning yet
    setAside '=', setAside ',', setAside '!', setAside '@', setAside '|']

/-- The registered operator with a symbol. -/
def ofSymbol? (symbol : Text) : Option Operator :=
  registered.find? fun o => o.symbol == symbol

/-- Every registered operator is written as a single character. -/
theorem registered_symbol_length : ∀ o ∈ registered, o.symbol.length = 1 := by decide

/-- Looking up a symbol finds an operator with that symbol. -/
theorem symbol_of_ofSymbol? {symbol : Text} {o : Operator} (h : ofSymbol? symbol = some o) :
    o.symbol = symbol := by
  simpa using List.find?_some h

/-- The notation for an operator in messages, from its symbol as messages show it: how to look
    it up. -/
def lookup (symbol : Text) : Text := "get_operator(".toText ++ symbol ++ ")".toText

/-- The inspection form of an operator. -/
def inspect (o : Operator) : Text := lookup o.symbol.quoted

end Operator

/-- An operator whose parameters are values of any type.  It can stand in an expression like
    any other; only when a parameter is needed does it matter what it is. -/
structure LooseOperator (β : Type) where
  symbol : β
  tier : β
  first : β
  separator : β
  named : β
  ifEmpty : β
  allowReserved : β

end UriTemplate
