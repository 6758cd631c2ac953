import UriTemplate.Entries
import UriTemplate.Text.Quoted

/-! # Items

An item is what a variable is bound to: a single text, a list of texts, or an association
of texts with texts that remembers its order.  There is also the bare item, which wraps a
value of any kind without giving it one of the three shapes.  It counts as defined, but
there is no way to write it. -/

namespace UriTemplate

/-- An ordered association of texts with texts. -/
structure Assoc where
  entries : Entries Text Text
  distinct : entries.keys.Nodup
deriving DecidableEq

/-- The association of pairs: of two pairs with one key, the later value takes the place
    of the earlier one. -/
def Assoc.ofPairs (pairs : List (Text × Text)) : Assoc :=
  ⟨Entries.ofPairs pairs, Entries.nodup_keys_ofPairs pairs⟩

/-- What a variable is bound to.  The parameter is the type of the values that a bare item
    can wrap. -/
inductive Item (β : Type) where
  | atom (text : Text)
  | list (texts : List Text)
  | assoc (pairs : Assoc)
  | bare (value : β)

namespace Item

variable {β : Type}

/-- The name of an item's shape. -/
def kind : Item β → String
  | atom _ => "Atom"
  | list _ => "List"
  | assoc _ => "Assoc"
  | bare _ => "DataItem"

/-- Whether the item takes part in an expansion: empty lists and associations do not. -/
def isDefined : Item β → Bool
  | atom _ => true
  | list texts => !texts.isEmpty
  | assoc pairs => !pairs.entries.isEmpty
  | bare _ => true

/-- Whether the item has one of the three shapes that can be written. -/
def isShaped : Item β → Bool
  | bare _ => false
  | _ => true

end Item

end UriTemplate
