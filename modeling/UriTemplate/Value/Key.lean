import UriTemplate.Value.Basic

/-! # Keys and equality

A value that can be a key of a mapping has a key: a list of tokens that says what the value
is and leaves out what does not count.  Numbers of all types are tokens by their exact
value, so that `1`, `1.0` and true are one key; operators are tokens by their symbols.  A
collection that is compared by its members, such as a tuple, is written out as its size
and its members.  Lists, sets, mappings and contexts have no key.

Equality of values agrees with keys where there are keys, and compares lists, sets and
mappings by their members. -/

namespace UriTemplate

/-- A token of a key. -/
inductive KeyToken where
  | null
  | number (d : Dyadic)
  | infinite (negative : Bool)
  | nan
  | text (t : Text)
  | bytes (bytes : List UInt8)
  | tuple (size : Nat)
  | atom (t : Text)
  | texts (ts : List Text)
  | assoc (pairs : List (Text × Text))
  | bare
  | limit (n : Nat)
  | explode
  | spec (v : VarSpec)
  | literal (t : Text)
  | expression (specs : List VarSpec) (symbol : Option Text)
  | template (size : Nat)
  | operator (symbol : Text)
  /-- A loose operator; the key of its symbol follows. -/
  | looseOperator
  /-- An expression under a loose operator; the key of the symbol follows. -/
  | looseExpression (specs : List VarSpec)
deriving DecidableEq

/-- What identifies a value as a key. -/
abbrev Key := List KeyToken

namespace KeyToken

/-- The token of a floating-point number. -/
def ofFloat : Binary64 → KeyToken
  | .nan => nan
  | .infinite negative => infinite negative
  | x => match x.toDyadic? with
    | some d => number d
    | none => nan

/-- The token of an expression. -/
def ofExpression (e : Expression) : KeyToken :=
  expression e.specs (e.operator.map Operator.symbol)

/-- The token of a part. -/
def ofPart : Part → KeyToken
  | .literal l => literal l.text
  | .expression e => ofExpression e

/-- The tokens of a node. -/
def ofNode : Node → Key
  | .limit length => [limit length.value]
  | .explode => [explode]
  | .spec v => [spec v]
  | .literal l => [literal l.text]
  | .expression e => [ofExpression e]
  | .template t => template t.parts.length :: t.parts.map ofPart

end KeyToken

namespace Value

mutual

/-- The key of a value. -/
def key : Value → Except Fault Key
  | null => .ok [.null]
  | bool b => .ok [.number (if b then 1 else 0)]
  | int n => .ok [.number n]
  | float x => .ok [.ofFloat x]
  | text t => .ok [.text t]
  | bytes bs => .ok [.bytes bs]
  | tuple vs => (keys vs).map fun ks => .tuple vs.length :: ks
  | item i => itemKey i
  | node n => .ok (KeyToken.ofNode n)
  -- an operator is its symbol, whatever its parameters are
  | operator o => .ok [.operator o.symbol]
  | looseOperator o => operatorKey .operator [.looseOperator] o
  | looseExpression specs o =>
    operatorKey (fun symbol => .expression specs (some symbol)) [.looseExpression specs] o
  | looseTemplate parts => (keys parts).map fun ks => .template parts.length :: ks
  | abstractNode => .error (.misuse .abstract)
  | list _ => .error (.misuse .unhashable)
  | set _ => .error (.misuse .unhashable)
  | map _ => .error (.misuse .unhashable)
  | context _ => .error (.misuse .unhashable)

/-- The keys of several values, one after the other. -/
def keys : List Value → Except Fault Key
  | [] => .ok []
  | v :: vs => do
    let k ← key v
    let ks ← keys vs
    return k ++ ks

/-- The key of a loose operator, or of an expression under one: a single token if the symbol
    is a text, as for other operators, and else a mark with the key of the symbol. -/
def operatorKey (token : Text → KeyToken) (mark : Key) : LooseOperator Value → Except Fault Key
  | ⟨symbol, _, _, _, _, _, _⟩ => match symbol with
    | text t => .ok [token t]
    | symbol => (key symbol).map (mark ++ ·)

/-- The key of an item. -/
def itemKey : Item Value → Except Fault Key
  | .atom t => .ok [.atom t]
  | .list ts => .ok [.texts ts]
  | .assoc pairs => .ok [.assoc pairs.entries]
  | .bare v => (key v).map fun ks => .bare :: ks

end

/-- Whether two values are the same key.  A key that holds what is not a number is the same
    as none, not even as itself. -/
def same (a b : Value) : Bool :=
  -- a value without a key is the same as none
  match a.key, b.key with
  | .ok x, .ok y => x == y && !x.contains .nan
  | _, _ => false

/-- Values are looked up by their keys. -/
instance : BEq Value := ⟨same⟩

/-- Two values are the same key just if both have this key, and nothing in it is not a number. -/
theorem beq_iff {a b : Value} :
    (a == b) = true ↔ ∃ k, a.key = .ok k ∧ b.key = .ok k ∧ KeyToken.nan ∉ k := by
  change a.same b = true ↔ _
  unfold same
  -- without a key on either side they are not the same
  cases a.key with
  | error e => simp
  | ok x => cases b.key with
    | error e => simp
    | ok y =>
      simp only [Bool.and_eq_true, beq_iff_eq, Bool.not_eq_eq_eq_not, Bool.not_true,
        List.contains_eq_mem, decide_eq_false_iff_not, Except.ok.injEq]
      constructor
      · rintro ⟨rfl, h⟩
        exact ⟨x, rfl, rfl, h⟩
      · rintro ⟨k, rfl, rfl, h⟩
        exact ⟨rfl, h⟩

instance : PartialEquivBEq Value where
  symm h := by
    obtain ⟨k, ha, hb, hk⟩ := beq_iff.mp h
    exact beq_iff.mpr ⟨k, hb, ha, hk⟩
  trans hab hbc := by
    -- the middle value has one key, which is then that of all three
    obtain ⟨k, ha, hb, hk⟩ := beq_iff.mp hab
    obtain ⟨k', hb', hc, -⟩ := beq_iff.mp hbc
    rw [hb] at hb'
    cases hb'
    exact beq_iff.mpr ⟨k, ha, hc, hk⟩

/-- Texts are the same key just if they are equal. -/
@[simp] theorem text_beq_text (s t : Text) : (text s == text t) = (s == t) := by
  rw [Bool.eq_iff_iff, beq_iff, beq_iff_eq]
  constructor
  · rintro ⟨k, hs, ht, -⟩
    simp only [key, Except.ok.injEq] at hs ht
    rw [← hs] at ht
    simpa using ht.symm
  · rintro rfl
    exact ⟨[.text s], rfl, rfl, by simp⟩

/-- The symbol of an operator. -/
def symbol? : Value → Option Value
  | operator o => some (text o.symbol)
  | looseOperator o => some o.symbol
  | _ => none

/-- The variables of an expression and the symbol of its operator, if it has one. -/
def expression? : Value → Option (List VarSpec × Option Value)
  | node (.expression e) => some (e.specs, e.operator.map fun o => text o.symbol)
  | looseExpression specs o => some (specs, some o.symbol)
  | _ => none

/-- The parts of a template. -/
def parts? : Value → Option (List Value)
  | node (.template t) => some (t.parts.map Part.toValue)
  | looseTemplate parts => some parts
  | _ => none

/-- Whether an expression is equal to one of these variables under a loose operator. -/
def equalExpression (e : Expression) (specs : List VarSpec) (o : LooseOperator Value) : Bool :=
  match e.operator with
  | some p => e.specs == specs && (text p.symbol).same o.symbol
  | none => false

/-- Whether a part of a template is equal to a value. -/
def equalPart (p : Part) : Value → Bool
  | node n => p.toNode == n
  -- a part has no loose operator, so only the symbol of its own one can be equal
  | looseExpression specs o => match p with
    | .expression e => equalExpression e specs o
    | .literal _ => false
  | _ => false

/-- Whether a piece of a template is equal to a value. -/
def equalNode (n : Node) : Value → Bool
  | node m => n == m
  | looseExpression specs o => match n with
    | .expression e => equalExpression e specs o
    | _ => false
  | looseTemplate parts => match n with
    | .template t => t.parts.length == parts.length &&
        (t.parts.zip parts).all fun p => equalPart p.1 p.2
    | _ => false
  | _ => false

mutual

/-- Whether two values are equal. -/
def equal : Value → Value → Except Fault Bool
  | list as, list bs => if as.length = bs.length then equalAll as bs else .ok false
  | tuple as, tuple bs => equalAll as bs
  -- members of sets have keys, so that being equal and being the same key agree
  | set as, set bs => .ok (as.length == bs.length && as.all fun a => bs.any (a == ·))
  | map as, b => match b.entries? with
    | some bs => if as.length = bs.length then equalEntries as bs else .ok false
    | none => .ok false
  | context as, b => match b.entries? with
    | some bs => if as.length = bs.length then equalBindings as bs else .ok false
    | none => .ok false
  | item a, b => equalItem a b
  | node n, b => .ok (equalNode n b)
  | operator o, b => match b.symbol? with
    | some symbol => .ok ((text o.symbol).same symbol)
    | none => .ok false
  | looseOperator o, b => match b.symbol? with
    | some symbol => equalSymbol o symbol
    | none => .ok false
  | looseExpression specs o, b => match b.expression? with
    | some (specs', some symbol) =>
      if specs = specs' then equalSymbol o symbol else .ok false
    | _ => .ok false
  | looseTemplate as, b => match b.parts? with
    | some bs => equalAll as bs
    | none => .ok false
  | abstractNode, abstractNode => .error (.misuse .abstract)
  | a, b => .ok (a.same b)

/-- Whether the symbol of a loose operator is equal to another symbol. -/
def equalSymbol : LooseOperator Value → Value → Except Fault Bool
  | ⟨symbol, _, _, _, _, _, _⟩, b => equal symbol b

/-- Whether two collections have equal members in the same order. -/
def equalAll : List Value → List Value → Except Fault Bool
  | [], [] => .ok true
  | a :: as, b :: bs => do if ← equal a b then equalAll as bs else return false
  | _, _ => .ok false

/-- Whether every entry is found in a mapping, with an equal value. -/
def equalEntries : List (Value × Value) → List (Value × Value) → Except Fault Bool
  | [], _ => .ok true
  | (k, v) :: rest, bs => match Entries.get? k bs with
    | some w => do if ← equal v w then equalEntries rest bs else return false
    | none => .ok false

/-- Whether every binding is found in a mapping, with an equal item. -/
def equalBindings : List (Value × Item Value) → List (Value × Value) → Except Fault Bool
  | [], _ => .ok true
  | (k, i) :: rest, bs => match Entries.get? k bs with
    | some w => do if ← equalItem i w then equalBindings rest bs else return false
    | none => .ok false

/-- Whether a value is an equal item: one of the same shape and content. -/
def equalItem : Item Value → Value → Except Fault Bool
  | .bare a, item (.bare b) => equal a b
  | .bare _, _ => .ok false
  | i, b => .ok ((item i).same b)

end

end Value

end UriTemplate
