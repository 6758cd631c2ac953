import UriTemplate.Proofs.ExpansionSteps
import UriTemplate.Proofs.Grammar
import UriTemplate.Value.Expansion
import Mathlib.Data.List.Basic

/-!
# Expansion as a single pass

The algorithm of RFC 6570, Appendix A, appends to one text from left to right, and knows of the
variables of an expression only whether one has been written already.  It stands here in
the namespace `Sequential`, with the table of the operators by their symbols.  No joining of
texts is involved.

Whenever an expansion succeeds, it gives the text of this pass
(`expandTemplate_eq_sequential`).  What a step of the pass appends does not depend on the
text before it (`Appends`), so that the steps are followed one by one: members, values,
variables, expressions, templates.
-/

namespace UriTemplate

namespace Sequential

/-- A column of the table of operators. -/
structure Behaviour where
  first : Text
  separator : Text
  named : Bool
  ifEmpty : Text
  allowReserved : Bool
deriving DecidableEq

/-- The table of operators.  Those that are set aside have no column. -/
def Behaviour.ofSymbol? : Text → Option Behaviour
  | [] => some ⟨[], ",".toText, false, [], false⟩
  | [.scalar '+'] => some ⟨[], ",".toText, false, [], true⟩
  | [.scalar '#'] => some ⟨"#".toText, ",".toText, false, [], true⟩
  | [.scalar '.'] => some ⟨".".toText, ".".toText, false, [], false⟩
  | [.scalar '/'] => some ⟨"/".toText, "/".toText, false, [], false⟩
  | [.scalar ';'] => some ⟨";".toText, ";".toText, true, [], false⟩
  | [.scalar '?'] => some ⟨"?".toText, "&".toText, true, "=".toText, false⟩
  | [.scalar '&'] => some ⟨"&".toText, "&".toText, true, "=".toText, false⟩
  | _ => none

/-! ## The pass

Every step takes the text so far and gives the longer one. -/

/-- Appends members, with the separator before each of them but the first. -/
def separated {α : Type} (sep : Text) (write : α → Text → Option Text) :
    List α → Text → Option Text
  | [], out => some out
  | x :: xs, out => do
    let out ← write x out
    xs.foldlM (fun out x => write x (out ++ sep)) out

namespace Behaviour

variable (b : Behaviour)

/-- Appends a text, encoded. -/
def encoded (t out : Text) : Option Text := do
  let s ← (Percent.encode b.allowReserved t).toOption
  return out ++ s

/-- Appends what is written under a name: the name and an equals sign come first, and the name
of something empty stands alone. -/
def under (name : Text) (empty : Prop) [Decidable empty] (write : Text → Option Text)
    (out : Text) : Option Text :=
  if b.named then
    if empty then some (out ++ name ++ b.ifEmpty) else write (out ++ name ++ [.scalar '='])
  else write out

/-- Appends a pair with a comma between key and value. -/
def pair (p : Text × Text) (out : Text) : Option Text := do
  let out ← b.encoded p.1 out
  b.encoded p.2 (out ++ [.scalar ','])

/-- Appends a pair with an equals sign between key and value. -/
def keyed (p : Text × Text) (out : Text) : Option Text := do
  let out ← b.encoded p.1 out
  if b.named = true ∧ p.2 = [] then some (out ++ b.ifEmpty)
  else b.encoded p.2 (out ++ [.scalar '='])

/-- Appends the value of a variable. -/
def value {β : Type} (v : VarSpec) : Item β → Text → Option Text
  | .atom t => b.under v.name.text (t = []) (b.encoded (match v.modifier with
    | some (.limit n) => t.take n.value
    | _ => t))
  | .list ts => match v.modifier with
    | some .explode =>
      separated b.separator (fun t => b.under v.name.text (t = []) (b.encoded t)) ts
    | _ => b.under v.name.text (",".toText.intercalate ts = [])
      (separated ",".toText b.encoded ts)
  | .assoc pairs => match v.modifier with
    | some .explode => separated b.separator b.keyed pairs.entries
    | _ => b.under v.name.text
      (",".toText.intercalate (pairs.entries.map fun p => p.1 ++ .scalar ',' :: p.2) = [])
      (separated ",".toText b.pair pairs.entries)
  | .bare _ => fun _ => none

end Behaviour

/-- The text so far, and whether a variable of the expression has been written. -/
structure State where
  text : Text
  started : Bool

/-- Appends a variable, if it is defined. -/
def step (b : Behaviour) (c : Context) (st : State) (v : VarSpec) : Option State :=
  match c.entries.get? (.text v.name.text) with
  | none => some st
  | some (.list []) => some st
  | some (.assoc ⟨[], _⟩) => some st
  | some i => do
    let out ← b.value v i (st.text ++ if st.started then b.separator else b.first)
    return ⟨out, true⟩

/-- Appends an expression. -/
def expression (c : Context) (e : Expression) (out : Text) : Option Text := do
  let b ← Behaviour.ofSymbol? ((e.operator.map Operator.symbol).getD [])
  let st ← e.specs.foldlM (step b c) ⟨out, false⟩
  return st.text

/-- Appends a part. -/
def part (c : Context) (out : Text) : Part → Option Text
  | .literal l => some (out ++ l.text)
  | .expression e => expression c e out

/-- The text of a template. -/
def template (c : Context) (t : Template) : Option Text := t.parts.foldlM (part c) []

/-! ## What a step appends -/

/-- A step appends a text, whatever stands before it. -/
def Appends (write : Text → Option Text) (s : Text) : Prop := ∀ out, write out = some (out ++ s)

/-- Behind the first member, every member comes with the separator before it. -/
private theorem foldlM_separated {α β ε : Type} {sep : Text} {write : α → Text → Option Text}
    {g : α → Except ε β} {f : β → Text} (h : ∀ x y, g x = .ok y → Appends (write x) (f y))
    (xs : List α) (ys : List β) (hys : xs.mapM g = .ok ys) (first out : Text) :
    xs.foldlM (fun out x => write x (out ++ sep)) (out ++ first) =
      some (out ++ sep.intercalate (first :: ys.map f)) := by
  -- the text of the member before moves into what has been written
  induction xs generalizing ys first out with
  | nil =>
    obtain rfl := mapM_nil_eq_ok.mp hys
    rw [List.map_nil, List.intercalate_singleton]
    rfl
  | cons x xs ih =>
    obtain ⟨y, ys, hy, htail, rfl⟩ := mapM_cons_eq_ok.mp hys
    have hwrite := h x y hy (out ++ first ++ sep)
    have hrest := ih ys htail (f y) (out ++ first ++ sep)
    rw [List.foldlM_cons, hwrite, List.map_cons, List.intercalate_cons_cons]
    rw [Option.bind_eq_bind, Option.bind_some, hrest]
    simp only [List.append_assoc]

/-- Members that are appended one by one are appended as their joined texts. -/
theorem appends_separated {α β ε : Type} {sep : Text} {write : α → Text → Option Text}
    {g : α → Except ε β} {f : β → Text} (h : ∀ x y, g x = .ok y → Appends (write x) (f y))
    {xs : List α} {ys : List β} (hys : xs.mapM g = .ok ys) :
    Appends (separated sep write xs) (sep.intercalate (ys.map f)) := by
  intro out
  -- the first member is appended by itself, and from there the separators begin
  cases xs with
  | nil =>
    obtain rfl := mapM_nil_eq_ok.mp hys
    rw [List.map_nil, List.intercalate_nil, List.append_nil]
    rfl
  | cons x xs =>
    -- what is left is the loop over the other members
    obtain ⟨y, ys, hy, htail, rfl⟩ := mapM_cons_eq_ok.mp hys
    simp only [separated, h x y hy out, Option.bind_eq_bind, Option.bind_some, List.map_cons]
    exact foldlM_separated h xs ys htail (f y) out

/-- Joined texts are empty just if the texts that they come from are empty when joined. -/
theorem intercalate_eq_nil_iff {α β ε : Type} {g : α → Except ε β} {raw : α → Text}
    {f : β → Text} (h : ∀ x y, g x = .ok y → (f y = [] ↔ raw x = []))
    {xs : List α} {ys : List β} (hys : xs.mapM g = .ok ys) :
    ",".toText.intercalate (ys.map f) = [] ↔ ",".toText.intercalate (xs.map raw) = [] := by
  cases xs with
  | nil =>
    obtain rfl := mapM_nil_eq_ok.mp hys
    exact Iff.rfl
  | cons x xs =>
    obtain ⟨y, ys, hy, htail, rfl⟩ := mapM_cons_eq_ok.mp hys
    cases xs with
    | nil =>
      obtain rfl := mapM_nil_eq_ok.mp htail
      simpa using h x y hy
    | cons x' xs =>
      -- with two members there is a comma on both sides
      obtain ⟨y', ys, -, -, rfl⟩ := mapM_cons_eq_ok.mp htail
      have hcomma : ",".toText ≠ [] := by decide
      simp [List.intercalate_cons_cons, hcomma]

end Sequential

/-! ## Encoded texts -/

/-- A character is written as something. -/
theorem Percent.encodeChar_ne_nil (allowReserved : Bool) (c : Char) :
    Percent.encodeChar allowReserved c ≠ [] := by
  unfold Percent.encodeChar
  split
  · exact List.cons_ne_nil _ _
  · intro h
    have hlength := String.length_utf8EncodeChar c
    have hpos := c.utf8Size_pos
    rw [List.flatMap_eq_nil_iff] at h
    -- a character has a byte at least, and a byte is written as a triplet
    cases hbytes : String.utf8EncodeChar c with
    | nil =>
      rw [hbytes, List.length_nil] at hlength
      omega
    | cons byte bytes => exact absurd (h byte (by simp [hbytes])) (List.cons_ne_nil _ _)

/-- Only the empty text is encoded as the empty text. -/
theorem Percent.encode_eq_nil_iff {allowReserved : Bool} {t s : Text}
    (h : Percent.encode allowReserved t = .ok s) : s = [] ↔ t = [] := by
  unfold Percent.encode at h
  constructor
  · intro hs
    subst hs
    -- a triplet and any other character are both written as something
    unfold Percent.encodeFrom at h
    split at h
    · rfl
    · split at h
      · obtain ⟨s, -, hs⟩ := map_eq_ok.mp h
        cases hs
      · obtain ⟨s, -, hs⟩ := map_eq_ok.mp h
        exact absurd (List.append_eq_nil_iff.mp hs).1 (Percent.encodeChar_ne_nil _ _)
    · obtain ⟨s, -, hs⟩ := map_eq_ok.mp h
      exact absurd (List.append_eq_nil_iff.mp hs).1 (Percent.encodeChar_ne_nil _ _)
    · cases h
  · intro ht
    subst ht
    cases h
    rfl

namespace Sequential

/-! ## Values -/

/-- The column of an operator. -/
def Behaviour.ofOperator (o : Operator) : Behaviour :=
  ⟨o.first, o.separator, o.named, o.ifEmpty, o.allowReserved⟩

/-- The table has the columns of the operators that can be expanded. -/
theorem ofSymbol?_symbol :
    ∀ o ∈ Operator.simple :: Operator.registered, o.isReserved = false →
      Behaviour.ofSymbol? o.symbol = some (.ofOperator o) := by decide

variable {o : Operator}

/-- A text is appended as it is encoded. -/
theorem appends_encoded {t s : Text} (h : Percent.encode o.allowReserved t = .ok s) :
    Appends ((Behaviour.ofOperator o).encoded t) s := by
  intro out
  simp only [Behaviour.encoded, Behaviour.ofOperator, h]
  rfl

/-- What is appended under a name is appended with the name. -/
theorem appends_under {name s : Text} {empty : Prop} [Decidable empty]
    {write : Text → Option Text} (h : Appends write s) (hempty : s = [] ↔ empty) :
    Appends ((Behaviour.ofOperator o).under name empty write) (o.withName name s) := by
  intro out
  unfold Behaviour.under Operator.withName
  show (if o.named = true then _ else _) = _
  by_cases hnamed : o.named = true
  · -- the name is written in any case, and what follows depends on the text
    rw [if_pos hnamed, if_pos hnamed]
    by_cases hs : s = []
    · rw [if_pos hs, if_pos (hempty.mp hs), List.append_assoc]
      rfl
    · rw [if_neg hs, if_neg fun he => hs (hempty.mpr he), h]
      simp
  · rw [if_neg hnamed, if_neg hnamed, h]

/-- A pair is encoded as two texts. -/
theorem encodePair_eq_ok {allowReserved : Bool} {p q : Text × Text}
    (h : encodePair allowReserved p = .ok q) :
    Percent.encode allowReserved p.1 = .ok q.1 ∧ Percent.encode allowReserved p.2 = .ok q.2 := by
  obtain ⟨key, hkey, hrest⟩ := bind_eq_ok.mp h
  obtain ⟨value, hvalue, hq⟩ := bind_eq_ok.mp hrest
  rw [pure_eq_ok] at hq
  subst hq
  exact ⟨hkey, hvalue⟩

/-- A pair is appended with its comma. -/
theorem appends_pair {p q : Text × Text} (h : encodePair o.allowReserved p = .ok q) :
    Appends ((Behaviour.ofOperator o).pair p) (q.1 ++ .scalar ',' :: q.2) := by
  intro out
  obtain ⟨hkey, hvalue⟩ := encodePair_eq_ok h
  rw [Behaviour.pair, appends_encoded hkey out, Option.bind_eq_bind, Option.bind_some,
    appends_encoded hvalue]
  simp

/-- A pair is appended with its equals sign, and with the key alone where the value is empty. -/
theorem appends_keyed {p q : Text × Text} (h : encodePair o.allowReserved p = .ok q) :
    Appends ((Behaviour.ofOperator o).keyed p) (o.member q.1 q.2) := by
  intro out
  obtain ⟨hkey, hvalue⟩ := encodePair_eq_ok h
  have hempty := Percent.encode_eq_nil_iff hvalue
  rw [Behaviour.keyed, appends_encoded hkey out, Option.bind_eq_bind, Option.bind_some]
  show (if o.named = true ∧ p.2 = [] then _ else _) = _
  unfold Operator.member Operator.withName
  -- an empty value is left out only where names are written
  by_cases hnamed : o.named = true
  · by_cases hp : p.2 = []
    · rw [if_pos ⟨hnamed, hp⟩, if_pos hnamed, if_pos hnamed, if_pos (hempty.mpr hp)]
      simp [Behaviour.ofOperator]
    · rw [if_neg fun h => hp h.2, if_pos hnamed, if_pos hnamed, if_neg fun h => hp (hempty.mp h),
        appends_encoded hvalue]
      simp
  · rw [if_neg fun h => hnamed h.1, if_neg hnamed, appends_encoded hvalue]
    simp

/-- Cutting leaves something of every text that is not empty. -/
theorem cut_eq_nil_iff (v : VarSpec) (t : Text) : v.cut t = [] ↔ t = [] := by
  unfold VarSpec.cut
  split
  · next n hn =>
    -- a prefix length is positive
    have hpos : 0 < n := by
      unfold VarSpec.limit? at hn
      split at hn
      · next length hlength =>
        cases hn
        exact length.positive
      · cases hn
    rw [List.take_eq_nil_iff]
    constructor
    · intro h
      exact h.resolve_left (Nat.ne_of_gt hpos)
    · exact .inr
  · exact Iff.rfl

/-- A single text is cut and then appended under the name. -/
theorem appends_atom {v : VarSpec} {t s : Text} (h : v.renderAtom o t = .ok s) {β : Type} :
    Appends ((Behaviour.ofOperator o).value v (.atom t : Item β)) s := by
  obtain ⟨value, hvalue, hs⟩ := bind_eq_ok.mp h
  rw [pure_eq_ok] at hs
  subst hs
  have hempty := (Percent.encode_eq_nil_iff hvalue).trans (cut_eq_nil_iff v t)
  -- the modifier is looked at in the same way on both sides
  have hcut : v.cut t = match v.modifier with
      | some (.limit n) => t.take n.value
      | _ => t := by
    obtain ⟨name, modifier⟩ := v
    cases modifier with
    | none => rfl
    | some m =>
      cases m with
      | limit n => rfl
      | explode => rfl
  have hwrite := appends_encoded hvalue
  rw [hcut] at hwrite
  exact appends_under hwrite hempty

/-- The members of a list are appended one by one, or with commas under one name. -/
theorem appends_list {v : VarSpec} {ts : List Text} {s : Text} (h : v.renderList o ts = .ok s)
    {β : Type} : Appends ((Behaviour.ofOperator o).value v (.list ts : Item β)) s := by
  obtain ⟨values, hvalues, hs⟩ := bind_eq_ok.mp h
  rw [pure_eq_ok] at hs
  subst hs
  -- each member is written under the name, or all of them are at once
  have hexploded : Appends
      (separated o.separator (fun t => (Behaviour.ofOperator o).under v.name.text (t = [])
        ((Behaviour.ofOperator o).encoded t)) ts)
      (o.separator.intercalate (values.map (o.withName v.name.text))) :=
    appends_separated (fun t s hs => appends_under (appends_encoded hs)
      (Percent.encode_eq_nil_iff hs)) hvalues
  have hjoined : Appends
      ((Behaviour.ofOperator o).under v.name.text (",".toText.intercalate ts = [])
        (separated ",".toText (Behaviour.ofOperator o).encoded ts))
      (o.withName v.name.text (",".toText.intercalate values)) := by
    have hwrite : Appends (separated ",".toText (Behaviour.ofOperator o).encoded ts)
        (",".toText.intercalate (values.map id)) :=
      appends_separated (fun t s hs => appends_encoded hs) hvalues
    have hempty : ",".toText.intercalate (values.map id) = [] ↔
        ",".toText.intercalate (ts.map id) = [] :=
      intercalate_eq_nil_iff (fun t s hs => Percent.encode_eq_nil_iff hs) hvalues
    rw [List.map_id] at hwrite
    rw [List.map_id, List.map_id] at hempty
    exact appends_under hwrite hempty
  obtain ⟨name, modifier⟩ := v
  -- a prefix length does not matter for a list: the pass joins it like one without a modifier
  cases modifier with
  | none => exact hjoined
  | some m =>
    cases m with
    | limit n => exact hjoined
    | explode => exact hexploded

/-- The pairs of an association are appended one by one, or with commas under one name. -/
theorem appends_assoc {v : VarSpec} {pairs : Assoc} {s : Text}
    (h : v.renderAssoc o pairs = .ok s) {β : Type} :
    Appends ((Behaviour.ofOperator o).value v (.assoc pairs : Item β)) s := by
  obtain ⟨values, hvalues, hs⟩ := bind_eq_ok.mp h
  rw [pure_eq_ok] at hs
  subst hs
  -- pair by pair, or all of them under the name
  have hexploded : Appends (separated o.separator (Behaviour.ofOperator o).keyed pairs.entries)
      (o.separator.intercalate (values.map fun q => o.member q.1 q.2)) :=
    appends_separated (fun p q hq => appends_keyed hq) hvalues
  have hjoined : Appends
      ((Behaviour.ofOperator o).under v.name.text
        (",".toText.intercalate (pairs.entries.map fun p => p.1 ++ .scalar ',' :: p.2) = [])
        (separated ",".toText (Behaviour.ofOperator o).pair pairs.entries))
      (o.withName v.name.text
        (",".toText.intercalate (values.map fun q => q.1 ++ .scalar ',' :: q.2))) := by
    apply appends_under
    · exact appends_separated (fun p q hq => appends_pair hq) hvalues
    · -- a pair is never empty, as it has a comma
      exact intercalate_eq_nil_iff (fun p q hq => by simp) hvalues
  obtain ⟨name, modifier⟩ := v
  cases modifier with
  | none => exact hjoined
  | some m =>
    cases m with
    | limit n => exact hjoined
    | explode => exact hexploded

/-- What is written for a variable is appended for it. -/
theorem appends_value {β : Type} {v : VarSpec} {i : Item β} {s : Text}
    (h : v.render o i = .ok s) : Appends ((Behaviour.ofOperator o).value v i) s := by
  cases i with
  | atom t => exact appends_atom (VarSpec.render_atom_eq_ok.mp h)
  | list ts => exact appends_list (VarSpec.render_list_eq_ok.mp h).2
  | assoc pairs => exact appends_assoc (VarSpec.render_assoc_eq_ok.mp h).2
  | bare value => exact absurd h VarSpec.render_bare_ne_ok

/-! ## Variables of an expression

The invariant of the pass over the variables: the texts of those that are defined stand joined
behind what stood before the expression, and whether there are any is remembered. -/

/-- The state behind variables with these texts. -/
def State.after (out : Text) (o : Operator) (texts : List Text) : State :=
  ⟨out ++ o.join texts, !texts.isEmpty⟩

/-- One more text comes behind the separator, or as the first one behind what the operator
begins with. -/
theorem join_concat (texts : List Text) (s : Text) :
    o.join (texts ++ [s]) =
      o.join texts ++ (if (!texts.isEmpty) = true then o.separator else o.first) ++ s := by
  -- the first text stands behind what the operator begins with, and every other one behind a
  -- separator
  cases texts with
  | nil => simp [Operator.join]
  | cons t ts =>
    unfold Operator.join
    rw [if_neg (by simp), if_neg (by simp), if_pos (by simp),
      intercalate_append (List.cons_ne_nil t ts) (List.cons_ne_nil s []),
      List.intercalate_singleton]
    simp only [List.append_assoc]

/-- A defined variable is appended behind what the operator puts before it. -/
theorem step_of_isDefined {b : Behaviour} {c : Context} {v : VarSpec} {i : Item Value}
    (hlook : c.entries.get? (.text v.name.text) = some i) (hdef : i.isDefined = true)
    (st : State) :
    step b c st v = (do
      let out ← b.value v i (st.text ++ if st.started then b.separator else b.first)
      return ⟨out, true⟩) := by
  unfold step
  rw [hlook]
  -- the arms for what is not defined do not apply
  split
  · next h => cases h
  · next h =>
    cases h
    cases hdef
  · next h =>
    cases h
    cases hdef
  · next j _ _ h =>
    cases h
    rfl

/-- An undefined variable leaves the state as it is. -/
theorem step_of_not_isDefined {b : Behaviour} {c : Context} {v : VarSpec}
    (h : ∀ i, c.entries.get? (.text v.name.text) = some i → i.isDefined = false) (st : State) :
    step b c st v = some st := by
  unfold step
  split
  · rfl
  · rfl
  · rfl
  · next i hlist hassoc hlook =>
    -- only empty collections are not defined, and they have been seen before
    have hdef := h i hlook
    cases i with
    | atom t => cases hdef
    | list ts =>
      cases ts with
      | nil => exact absurd rfl hlist
      | cons t ts => cases hdef
    | assoc pairs =>
      obtain ⟨entries, hdistinct⟩ := pairs
      cases entries with
      | nil => exact absurd rfl (hassoc hdistinct)
      | cons p ps => cases hdef
    | bare value => cases hdef

/-- A variable keeps the invariant: its text comes last, if it is defined. -/
theorem step_after {c : Context} {v : VarSpec} {text? : Option Text}
    (h : v.expand? c.look o = .ok text?) (out : Text) (texts : List Text) :
    step (.ofOperator o) c (.after out o texts) v =
      some (.after out o (texts ++ text?.toList)) := by
  -- unbound, not defined, or defined with a text
  rcases VarSpec.expand?_eq_ok.mp h with ⟨hlook, rfl⟩ | ⟨i, hlook, hitem⟩
  · -- the name is not bound
    have hnone : c.entries.get? (.text v.name.text) = none := by
      unfold Context.look at hlook
      split at hlook
      · cases hlook
      · assumption
    rw [step_of_not_isDefined (fun i hi => by rw [hnone] at hi; cases hi)]
    simp
  · have hsome : c.entries.get? (.text v.name.text) = some i := by
      unfold Context.look at hlook
      split at hlook
      · next j hj =>
        cases hlook
        exact hj
      · cases hlook
    rcases hitem with ⟨hdef, rfl⟩ | ⟨hdef, s, hs, rfl⟩
    · rw [step_of_not_isDefined (fun j hj => by rw [hsome] at hj; cases hj; exact hdef)]
      simp
    · rw [step_of_isDefined hsome hdef, appends_value hs]
      simp only [State.after, Behaviour.ofOperator, Option.toList_some, join_concat,
        List.append_assoc]
      simp

/-- All variables of an expression keep the invariant. -/
theorem foldlM_step_after {c : Context} (vs : List VarSpec) (texts? : List (Option Text))
    (h : vs.mapM (VarSpec.expand? c.look o) = .ok texts?) (out : Text) (texts : List Text) :
    vs.foldlM (step (.ofOperator o) c) (.after out o texts) =
      some (.after out o (texts ++ texts?.filterMap id)) := by
  induction vs generalizing texts? texts with
  | nil =>
    obtain rfl := mapM_nil_eq_ok.mp h
    rw [List.filterMap_nil, List.append_nil]
    rfl
  | cons v vs ih =>
    -- the texts of the other variables come behind the text of the first one
    obtain ⟨text?, more?, hv, hvs, rfl⟩ := mapM_cons_eq_ok.mp h
    rw [List.foldlM_cons, step_after hv, Option.bind_eq_bind, Option.bind_some, ih more? hvs]
    cases text? with
    | none => simp
    | some s => simp

/-! ## Expressions and templates -/

/-- The operators of a template are those of the table, or set aside. -/
def IsTabled (t : Template) : Prop :=
  ∀ e ∈ t.expressions, e.operator = some .simple ∨ e.IsRegistered

instance (t : Template) : Decidable (IsTabled t) :=
  inferInstanceAs (Decidable (∀ e ∈ t.expressions, e.operator = some .simple ∨ e.IsRegistered))

/-- The operator that such an expression is expanded with is in the table. -/
theorem effectiveOperator_mem {e : Expression}
    (ho : e.operator = some .simple ∨ e.IsRegistered) :
    e.effectiveOperator ∈ Operator.simple :: Operator.registered := by
  unfold Expression.effectiveOperator
  rcases ho with ho | ho
  · simp [ho]
  · cases hop : e.operator with
    | none => exact List.mem_cons_self
    | some o => exact List.mem_cons_of_mem _ (ho o hop)

/-- An expression appends what it expands to, whatever stands before it. -/
theorem appends_expression {c : Context} {e : Expression} {s : Text}
    (ho : e.operator = some .simple ∨ e.IsRegistered) (h : e.expand c.look = .ok s) :
    Appends (expression c e) s := by
  intro out
  obtain ⟨hcheck, texts, htexts, rfl⟩ := Expression.expand_eq_ok.mp h
  have hreserved := Expression.isReserved_of_check hcheck
  have hmem := effectiveOperator_mem ho
  -- an expression without an operator is looked up under the empty symbol
  have hsymbol : (e.operator.map Operator.symbol).getD [] = e.effectiveOperator.symbol := by
    unfold Expression.effectiveOperator
    cases e.operator with
    | none => rfl
    | some o => rfl
  -- no variable has been written yet
  have hstart : (⟨out, false⟩ : State) = .after out e.effectiveOperator [] := by
    simp [State.after, Operator.join]
  have hrun := foldlM_step_after e.specs texts htexts out []
  rw [expression, hsymbol, ofSymbol?_symbol _ hmem hreserved, hstart]
  simp only [Option.bind_eq_bind, Option.bind_some, hrun]
  rfl

/-- The parts of a template are appended one after the other. -/
theorem appends_parts {c : Context} (ps : List Part) {s : Text} (hops : IsTabled ⟨ps⟩)
    (h : Template.expand c.look ⟨ps⟩ = .ok s) :
    Appends (fun out => ps.foldlM (part c) out) s := by
  -- part by part, with the text so far left open
  induction ps generalizing s with
  | nil =>
    rw [Template.expand_nil] at h
    cases h
    intro out
    rw [List.append_nil]
    rfl
  | cons p ps ih =>
    intro out
    rw [Template.expand_cons] at h
    obtain ⟨t, hp, hrest⟩ := bind_eq_ok.mp h
    obtain ⟨u, hps, hs⟩ := bind_eq_ok.mp hrest
    rw [pure_eq_ok] at hs
    subst hs
    have hpart : part c out p = some (out ++ t) := by
      cases p with
      | literal l =>
        cases hp
        rfl
      | expression e => exact appends_expression (hops e List.mem_cons_self) hp out
    -- the operators of the other parts are in the table as well
    have htail : IsTabled ⟨ps⟩ := by
      intro e he
      apply hops e
      cases p with
      | literal l => exact he
      | expression e' => exact List.mem_cons_of_mem _ he
    have hmore := ih htail hps (out ++ t)
    simp only [List.foldlM_cons, hpart, Option.bind_eq_bind, Option.bind_some, hmore,
      List.append_assoc]

end Sequential

/-- An expansion that succeeds gives the text of the single pass. -/
theorem Value.expandTemplate_eq_sequential (t : Template) (c : Context) (s : Text)
    (hops : Sequential.IsTabled t) (h : Value.expandTemplate t c.toValue = .ok s) :
    Sequential.template c t = some s := by
  have hexpand : t.expand c.look = .ok s := mapError_eq_ok.mp h
  exact Sequential.appends_parts t.parts hops hexpand []

/-- An unbound variable, empty members under a name, a pair, and a prefix of an encoded text. -/
theorem Value.expandTemplate_eq_sequential_mixed :
    ∃ (t : Template) (c : Context),
      t.format = "x{?q,u,l*,m}{#q:3}".toText ∧
        Value.expandTemplate t c.toValue = .ok "x?q=a%20b%2B&l=&l=c&m=k,#a%20b".toText ∧
        Sequential.template c t = some "x?q=a%20b%2B&l=&l=c&m=k,#a%20b".toText := by
  let q : VarName := ⟨"q".toText, by decide⟩
  let query : Expression :=
    ⟨[⟨q, none⟩, ⟨⟨"u".toText, by decide⟩, none⟩, ⟨⟨"l".toText, by decide⟩, some .explode⟩,
      ⟨⟨"m".toText, by decide⟩, none⟩], some (.prefixing '?' '&' true "=".toText), by decide⟩
  let fragment : Expression :=
    ⟨[⟨q, some (.limit ⟨3, by decide⟩)⟩], some (.passing '#' "#".toText), by decide⟩
  let t : Template :=
    ⟨[.literal ⟨"x".toText, by decide, by decide⟩, .expression query, .expression fragment]⟩
  let c : Context :=
    ⟨[(.text "q".toText, .atom "a b+".toText), (.text "l".toText, .list [[], "c".toText]),
      (.text "m".toText, .assoc (.ofPairs [("k".toText, [])]))]⟩
  -- the expansion is evaluated, and the pass follows from it
  have hexpand : Value.expandTemplate t c.toValue =
      .ok "x?q=a%20b%2B&l=&l=c&m=k,#a%20b".toText := by decide +kernel
  have hops : Sequential.IsTabled t := by decide
  exact ⟨t, c, by decide, hexpand, Value.expandTemplate_eq_sequential t c _ hops hexpand⟩

end UriTemplate
