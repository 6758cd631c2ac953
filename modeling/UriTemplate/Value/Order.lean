import UriTemplate.Value.Key

/-! # Order of values

Texts, byte strings and numbers are ordered among themselves, and tuples by their first
difference; values of different sorts have no order.  What is not a number comes neither
before nor after any number.  Values are sorted by taking the run at the front that is in
order already, upwards or strictly downwards, and inserting the others by bisection, each
behind those that it does not come before.  So equal values keep their order, and it is
settled what becomes of values that are not numbers. -/

namespace UriTemplate.Value

/-- A number with the infinities around it, or what is not a number. -/
inductive Extended where
  | below
  | number (d : Dyadic)
  | above
  | nan

/-- Whether the first number comes before the second one. -/
def Extended.lt : Extended → Extended → Bool
  | nan, _ => false
  | _, nan => false
  | below, below => false
  | below, _ => true
  | _, below => false
  | above, _ => false
  | _, above => true
  | number a, number b => !Dyadic.ble b a

/-- The number that a value is. -/
def number? : Value → Option Extended
  | bool b => some (.number (if b then 1 else 0))
  | int n => some (.number n)
  | float (.infinite negative) => some (if negative then .below else .above)
  | float x => some (match x.toDyadic? with
    | some d => .number d
    | none => .nan)
  | _ => none

/-- Whether the first byte string comes before the second one. -/
def bytesLt : List UInt8 → List UInt8 → Bool
  | _, [] => false
  | [], _ :: _ => true
  | a :: s, b :: t => a < b || (a == b && bytesLt s t)

mutual

/-- Whether a value comes before another one, if the two have an order. -/
def lt? : Value → Value → Option Bool
  | text s, text t => some (!t.le s)
  | bytes s, bytes t => some (bytesLt s t)
  | tuple as, tuple bs => tupleLt? as bs
  | a, b => match a.number?, b.number? with
    | some x, some y => some (x.lt y)
    | _, _ => none

/-- The order of tuples. -/
def tupleLt? : List Value → List Value → Option Bool
  | _, [] => some false
  | [], _ :: _ => some true
  -- the first members that are not the same key decide
  | a :: as, b :: bs => if a == b then tupleLt? as bs else lt? a b

end

/-- Whether a value comes before another one.  The two have to have an order. -/
def before (a b : Value) : Except Fault Bool :=
  match lt? a b with
  | some isBefore => .ok isBefore
  | none => .error (.misuse .unorderable)

/-- The values at the front that go on from `last`, each before the one in front of it or
    none of them, and the values behind them. -/
def runFrom (downwards : Bool) (last : Value) :
    List Value → Except Fault (List Value × List Value)
  | [] => .ok ([], [])
  | v :: vs => do
    if (← v.before last) == downwards then
      let (run, rest) ← runFrom downwards v vs
      return (v :: run, rest)
    else return ([], v :: vs)

/-- The place of a value among sorted ones, from `low` to `high`. -/
def placeAmong (sorted : List Value) (v : Value) (low high : Nat) : Except Fault Nat :=
  if low < high then
    let middle := (low + high) / 2
    match sorted[middle]? with
    | some w => do
      -- behind a value that it does not come before: equal ones keep their order
      if ← v.before w then placeAmong sorted v low middle
      else placeAmong sorted v (middle + 1) high
    | none => .ok low
  else .ok low
termination_by high - low

/-- Inserts a value into sorted ones. -/
def insertSorted (sorted : List Value) (v : Value) : Except Fault (List Value) := do
  return sorted.insertIdx (← placeAmong sorted v 0 sorted.length) v

/-- The values in increasing order. -/
def sort : List Value → Except Fault (List Value)
  | a :: b :: rest => do
    let downwards ← b.before a
    let (run, rest) ← runFrom downwards a (b :: rest)
    -- a run downwards is strict, so that turning it around keeps equal values in order
    let front := if downwards then (a :: run).reverse else a :: run
    rest.foldlM insertSorted front
  | vs => .ok vs

end UriTemplate.Value
