import UriTemplate.Value.Conversion

/-! # Contexts

A context binds names to items, in the order in which the names were first bound.  It is
made by binding names to values one after the other: a value takes the place of an earlier
one under the same name, and a null value removes the name.  Names can be any values that
have keys, but only texts are ever looked up by an expansion. -/

namespace UriTemplate

/-- Names bound to items. -/
structure Context where
  entries : Entries Value (Item Value)

namespace Context

/-- The context without names. -/
def empty : Context := ⟨[]⟩

/-- The context as a value. -/
def toValue (c : Context) : Value := .context c.entries

/-- Binds a name to a value.  The name has to have a key if there is anything to do. -/
def bind (c : Context) (name value : Value) : Except Fault Context := do
  match ← value.toItem? with
  | some i =>
    discard name.key
    return ⟨c.entries.put name i⟩
  | none =>
    -- nothing is looked up in an empty context
    if c.entries.isEmpty then return c
    else
      discard name.key
      return ⟨c.entries.remove name⟩

/-- Binds the name of a pair to its value. -/
def bindPair (c : Context) (pair : Value) : Except Fault Context := do
  let (name, value) ← pair.unpair
  c.bind name value

/-- The context of names and values, bound one after the other. -/
def ofPairs (pairs : List (Value × Value)) : Except Fault Context :=
  pairs.foldlM (fun c p => c.bind p.1 p.2) empty

/-- The context that a value stands for: a context for itself, a mapping or a collection of
    pairs for the names and values in it, and anything that is empty for no names. -/
def ofValue : Value → Except Fault Context
  | .context entries => .ok ⟨entries⟩
  | v => match v.entries? with
    | some pairs => ofPairs pairs
    | none =>
      if v.isEmpty then .ok empty
      else do (← v.members).foldlM bindPair empty

/-- The item of a name. -/
def get? (c : Context) (name : Value) : Except Fault (Option (Item Value)) := do
  discard name.key
  return c.entries.get? name

/-- The text of a name that is bound to a single text. -/
def atom? (c : Context) (name : Value) : Except Fault (Option Text) := do
  match ← c.get? name with
  | some (.atom t) => return some t
  | _ => return none

/-- The texts of a name that is bound to a list. -/
def list? (c : Context) (name : Value) : Except Fault (Option (List Text)) := do
  match ← c.get? name with
  | some (.list ts) => return some ts
  | _ => return none

/-- The association of a name that is bound to one. -/
def assoc? (c : Context) (name : Value) : Except Fault (Option Assoc) := do
  match ← c.get? name with
  | some (.assoc pairs) => return some pairs
  | _ => return none

/-- What a name is bound to, as expansions see it. -/
def look (c : Context) (name : Text) : Binding Value :=
  match c.entries.get? (.text name) with
  | some i => .item i
  | none => .unbound

end Context

end UriTemplate
