import UriTemplate.Proofs.ReadBack
import UriTemplate.Proofs.Refusals

/-!
# Unrolling exploded collections

A collection that is expanded member by member stands for as many variables: a list for one
variable for each of its members, where names are not written, and an association for its keys as
variables, where they are (`Value.expandTemplate_explode`).

Both sides are followed back to one pass over the members (`VarSpec.Writes`).  The exploded
variable joins the texts that this pass gives, and the list of variables leaves that to the
expression.  So they come to the same text, and a member that cannot be encoded stops both.
-/

namespace UriTemplate

variable {α β : Type}

/-! ## Encoded names -/

namespace Percent

/-- Unreserved characters are left as they are under either policy. -/
theorem encodeFrom_of_forall_isUnreserved {allowReserved : Bool} {position : Nat} {t : Text}
    (h : ∀ c ∈ t, c.isUnreserved = true) : encodeFrom allowReserved position t = .ok t := by
  -- the first character is written as it is, wherever it stands
  induction t generalizing position with
  | nil => rfl
  | cons c t ih =>
    rw [List.forall_mem_cons] at h
    obtain ⟨ch, rfl, hch⟩ := exists_char_of_plain (.inl h.1)
    have hpass : passes allowReserved (.scalar ch) = true := by rw [passes, h.1, Bool.true_or]
    rw [encodeFrom_cons hch, ih h.2, encodeChar, if_pos hpass]
    rfl

/-- The name of a variable is encoded as itself. -/
theorem encode_name (allowReserved : Bool) (n : VarName) :
    encode allowReserved n.text = .ok n.text :=
  encodeFrom_of_forall_isUnreserved (isUnreserved_of_mem_name n)

end Percent

/-- So a pair whose key is a name is written as its value under the name. -/
theorem encodePair_member {o : Operator} (hnamed : o.named = true) (n : VarName) (t : Text) :
    ((encodePair o.allowReserved (n.text, t)).map fun p => o.member p.1 p.2) =
      (Percent.encode o.allowReserved t).map (o.withName n.text) := by
  simp only [encodePair, Percent.encode_name, Operator.member, if_pos hnamed]
  cases Percent.encode o.allowReserved t with
  | error cause => rfl
  | ok s => rfl

/-! ## Operators -/

namespace Operator

variable {o : Operator}

/-- Where names are not written, it does not matter which one it is. -/
theorem withName_congr (hnamed : o.named = false) (n m : Text) : o.withName n = o.withName m := by
  funext t
  rw [withName, withName, if_neg (by simp [hnamed]), if_neg (by simp [hnamed])]

/-- So texts stay as they are. -/
theorem map_withName (hnamed : o.named = false) (n : Text) (ts : List Text) :
    ts.map (o.withName n) = ts := by
  refine (List.map_congr_left fun t _ => ?_).trans (List.map_id ts)
  rw [withName, if_neg (by simp [hnamed])]
  rfl

/-- Texts that are joined beforehand are put together as the texts themselves. -/
theorem join_intercalate {ts : List Text} (hts : ts ≠ []) :
    o.join [o.separator.intercalate ts] = o.join ts := by
  rw [join, join, if_neg (List.cons_ne_nil _ _), if_neg hts, List.intercalate_singleton]

end Operator

/-! ## Variables that are written -/

namespace VarSpec

/-- A variable is defined, and its text is that of a run of encoding. -/
def Writes (look : Text → Binding β) (o : Operator) (v : VarSpec)
    (run : Except Unencodable Text) : Prop :=
  v.expand? look o = (run.map some).mapError fun cause =>
    .rendering v.name.text (.unencodable cause)

variable {look : Text → Binding β} {o : Operator} {v : VarSpec} {x : VarName}

/-- A variable that is bound to a defined item is written as the item is. -/
theorem writes_of_render {i : Item β} {run : Except Unencodable Text}
    (hlook : look v.name.text = .item i) (hdef : i.isDefined = true)
    (h : v.render o i = run.mapError .unencodable) : v.Writes look o run := by
  simp only [Writes, expand?, hlook, if_pos hdef, h]
  cases run with
  | error cause => rfl
  | ok s => rfl

/-- A single text that is not cut is written under the name. -/
theorem writes_atom {t : Text} (hlook : look x.text = .item (.atom t)) :
    Writes look o ⟨x, none⟩ ((Percent.encode o.allowReserved t).map (o.withName x.text)) := by
  refine writes_of_render hlook rfl ?_
  rw [← bind_pure_eq_map]
  rfl

/-- A list with members is written as its members are, unless there is a prefix. -/
theorem writes_of_renderList {ts : List Text} {run : Except Unencodable Text}
    (hlimit : v.limit? = none) (hts : ts ≠ []) (hlook : look v.name.text = .item (.list ts))
    (h : v.renderList o ts = run) : v.Writes look o run := by
  have hdef : (Item.list ts : Item β).isDefined = true := by simpa [Item.isDefined] using hts
  refine writes_of_render hlook hdef ?_
  simp only [render, hlimit, h, Option.isSome_none, Bool.false_eq_true, if_false]

/-- An exploded list is written by joining its members, each under the name. -/
theorem writes_exploded_list {ts : List Text} (hts : ts ≠ [])
    (hlook : look x.text = .item (.list ts)) :
    Writes look o ⟨x, some .explode⟩
      ((ts.mapM fun t => (Percent.encode o.allowReserved t).map (o.withName x.text)).map
        o.separator.intercalate) := by
  refine writes_of_renderList rfl hts hlook ?_
  rw [← mapM_bind_pure_map]
  rfl

/-- Where members are separated by commas and names are not written, so is one that is not
exploded. -/
theorem writes_list {ts : List Text} (hnamed : o.named = false)
    (hcomma : o.separator = ",".toText) (hts : ts ≠ []) (hlook : look x.text = .item (.list ts)) :
    Writes look o ⟨x, none⟩
      ((ts.mapM fun t => (Percent.encode o.allowReserved t).map (o.withName x.text)).map
        o.separator.intercalate) := by
  refine writes_of_renderList rfl hts hlook ?_
  rw [← mapM_bind_pure_map]
  -- without names a joined list is the separated members, if the separator is the comma
  simp only [Operator.map_withName hnamed, hcomma]
  simp only [renderList, Operator.withName, hnamed]
  rfl

/-- An exploded association is written by joining its pairs. -/
theorem writes_exploded_assoc {pairs : Assoc} (hpairs : pairs.entries ≠ [])
    (hlook : look x.text = .item (.assoc pairs)) :
    Writes look o ⟨x, some .explode⟩
      ((pairs.entries.mapM fun p =>
        (encodePair o.allowReserved p).map fun p => o.member p.1 p.2).map
          o.separator.intercalate) := by
  have hdef : (Item.assoc pairs : Item β).isDefined = true := by
    simpa [Item.isDefined] using hpairs
  refine writes_of_render hlook hdef ?_
  -- both sides encode the pairs first
  rw [← mapM_bind_pure_map]
  rfl

/-- Variables that are written by the steps of a pass are expanded as the pass goes. -/
theorem mapM_of_writes {write : α → Except Unencodable Text} {vs : List VarSpec} {xs : List α}
    (h : List.Forall₂ (fun v x => v.Writes look o (write x)) vs xs) :
    (∀ ts, xs.mapM write = .ok ts → vs.mapM (expand? look o) = .ok (ts.map some)) ∧
      ∀ cause, xs.mapM write = .error cause →
        ∃ name, vs.mapM (expand? look o) = .error (.rendering name (.unencodable cause)) := by
  -- both passes go on together, and the first step that fails stops both
  induction h with
  | nil =>
    refine ⟨fun ts hts => ?_, nofun⟩
    rw [mapM_nil_eq_ok.mp hts]
    rfl
  | @cons v x vs xs hv _ ih =>
    obtain ⟨hok, herror⟩ := ih
    rw [Writes] at hv
    simp only [List.mapM_cons, hv]
    -- the step at hand fails, or a later one does, or none
    cases write x with
    | error cause =>
      refine ⟨nofun, fun cause' hcause => ?_⟩
      cases hcause
      exact ⟨v.name.text, rfl⟩
    | ok s =>
      cases hrest : xs.mapM write with
      | error cause =>
        obtain ⟨name, hname⟩ := herror cause hrest
        refine ⟨nofun, fun cause' hcause => ?_⟩
        cases hcause
        rw [hname]
        exact ⟨name, rfl⟩
      | ok ss =>
        refine ⟨fun ts hts => ?_, nofun⟩
        cases hts
        rw [hok ss hrest]
        rfl

end VarSpec

/-! ## Expansions that end alike -/

/-- Two expansions end in the same text, or both of them in an error of expansion. -/
def EndAlike (run run' : Except Fault Text) : Prop :=
  (∃ s, run = .ok s ∧ run' = .ok s) ∨
    ∃ f f', run = .error f ∧ run' = .error f' ∧ f.kind = .expansion ∧ f'.kind = .expansion

namespace Expression

/-- An expression whose variables are written by the steps of a pass is expanded as the pass
goes. -/
theorem expand_of_writes {look : Text → Binding β} {e : Expression}
    {write : α → Except Unencodable Text} {xs : List α} (hcheck : e.check = .ok ())
    (h : List.Forall₂ (fun v x => v.Writes look e.effectiveOperator (write x)) e.specs xs) :
    (∀ ts, xs.mapM write = .ok ts → e.expand look = .ok (e.effectiveOperator.join ts)) ∧
      ∀ cause, xs.mapM write = .error cause →
        ∃ name, e.expand look = .error (.rendering name (.unencodable cause)) := by
  obtain ⟨hok, herror⟩ := VarSpec.mapM_of_writes h
  -- the pass over the texts decides, as the check has been made
  constructor
  · intro ts hts
    refine expand_eq_ok.mpr ⟨hcheck, _, hok ts hts, ?_⟩
    rw [List.filterMap_map]
    exact congrArg _ List.filterMap_some.symm
  · intro cause hcause
    obtain ⟨name, hname⟩ := herror cause hcause
    exact ⟨name, bind_eq_error.mpr (.inr ⟨(), hcheck, bind_eq_error.mpr (.inl hname)⟩)⟩

/-- Where no variable has a prefix, an expression is let through by its operator. -/
theorem check_of_forall_limit? {e : Expression} (hop : e.effectiveOperator.isReserved = false)
    (hlimit : ∀ v ∈ e.specs, v.limit? = none) : e.check = .ok () := by
  refine check_eq_ok_iff.mpr ⟨hop, fun v hv n hn => ?_⟩
  rw [hlimit v hv] at hn
  cases hn

/-- An expression of variables by their names alone. -/
def ofNames (op : Option Operator) (names : List VarName) (hne : names ≠ []) : Expression :=
  ⟨names.map fun n => ⟨n, none⟩, op, by simpa using hne⟩

/-- A variable that joins the texts of a pass ends as the variables that are written by the steps
of the pass. -/
theorem endAlike_of_writes {op : Option Operator} {o : Operator} {v : VarSpec}
    {names : List VarName} {hne : names ≠ []} {c c' : Context} {xs : List α}
    {write : α → Except Unencodable Text} (ho : op.getD .simple = o) (hop : o.isReserved = false)
    (hlimit : v.limit? = none)
    (hone : v.Writes c.look o ((xs.mapM write).map o.separator.intercalate))
    (hmany : List.Forall₂ (fun n x => VarSpec.Writes c'.look o ⟨n, none⟩ (write x)) names xs) :
    EndAlike (Value.expandTemplate (.ofExpression (.ofVariable op v)) c.toValue)
      (Value.expandTemplate (.ofExpression (.ofNames op names hne)) c'.toValue) := by
  subst ho
  -- neither expression has a prefix length, so only the operator could refuse them
  have hcheck : (ofVariable op v).check = .ok () :=
    check_of_forall_limit? hop (List.forall_mem_singleton.mpr hlimit)
  have hcheck' : (ofNames op names hne).check = .ok () :=
    check_of_forall_limit? hop (List.forall_mem_map.mpr fun _ _ => rfl)
  let writeAll (xs : List α) := (xs.mapM write).map (op.getD .simple).separator.intercalate
  have hall : List.Forall₂ (fun v xs => VarSpec.Writes c.look (op.getD .simple) v (writeAll xs))
      (ofVariable op v).specs [xs] := .cons hone .nil
  obtain ⟨hok, herror⟩ := expand_of_writes hcheck hall
  obtain ⟨hok', herror'⟩ := expand_of_writes (e := ofNames op names hne) hcheck'
    (List.forall₂_map_left_iff.mpr hmany)
  rw [Value.expandTemplate_ofExpression, Value.expandTemplate_ofExpression]
  simp only [List.mapM_cons, writeAll] at hok herror
  -- the one pass decides for both expressions
  cases hrun : xs.mapM write with
  | ok ts =>
    have hts : ts ≠ [] :=
      ne_nil_of_forall₂ (forall₂_of_mapM_eq_ok hrun) (ne_nil_of_forall₂ hmany hne)
    rw [hok' ts hrun, hok _ (by rw [hrun]; rfl)]
    exact .inl ⟨_, congrArg _ (Operator.join_intercalate hts), rfl⟩
  | error cause =>
    obtain ⟨name, hname⟩ := herror cause (by rw [hrun]; rfl)
    obtain ⟨name', hname'⟩ := herror' cause hrun
    rw [hname, hname']
    exact .inr ⟨_, _, rfl, rfl, rfl, rfl⟩

end Expression

/-! ## Collections and their members -/

section Members

variable {op : Option Operator} {o : Operator} {x : VarName} {names : List VarName}
  {hne : names ≠ []} {c c' : Context} {ts : List Text} {pairs : Assoc}

/-- Where names are not written, variables that are bound to the members of a list are written as
the members under any name. -/
theorem writes_members {look : Text → Binding β} (hnamed : o.named = false) (x : VarName)
    (h : List.Forall₂ (fun n t => look n.text = .item (.atom t)) names ts) :
    List.Forall₂ (fun n t => VarSpec.Writes look o ⟨n, none⟩
      ((Percent.encode o.allowReserved t).map (o.withName x.text))) names ts := by
  refine h.imp fun n t hlook => ?_
  rw [Operator.withName_congr hnamed x.text n.text]
  exact VarSpec.writes_atom hlook

/-- Where names are written, variables that are bound to the values of an association under its
keys are written as its pairs. -/
theorem writes_pairs {look : Text → Binding β} (hnamed : o.named = true)
    {entries : List (Text × Text)}
    (h : List.Forall₂ (fun n p => p.1 = n.text ∧ look n.text = .item (.atom p.2)) names entries) :
    List.Forall₂ (fun n p => VarSpec.Writes look o ⟨n, none⟩
      ((encodePair o.allowReserved p).map fun p => o.member p.1 p.2)) names entries := by
  -- the key of a pair is the name of the variable, and so it is written as the name is
  refine h.imp fun n p hp => ?_
  obtain ⟨key, value⟩ := p
  obtain ⟨rfl, hlook⟩ := hp
  rw [encodePair_member hnamed]
  exact VarSpec.writes_atom hlook

end Members

/-- An exploded collection is expanded as its members are, each as a variable of its own.  Where
the operator writes no names, these are the members of a list, under any names; and where it
separates by commas, as it does without an operator and with a plus or a hash, the list need not
be exploded for that.  Where the operator writes names, they are the values of an association, and
the keys are the names.  As an expression has a variable, none of these collections is empty. -/
theorem Value.expandTemplate_explode (op : Option Operator) (o : Operator) (x : VarName)
    (names : List VarName) (hne : names ≠ []) (c c' : Context) (ho : op.getD .simple = o)
    (hop : o.isReserved = false) :
    (o.named = false → ∀ ts, c.look x.text = .item (.list ts) →
      List.Forall₂ (fun n t => c'.look n.text = .item (.atom t)) names ts →
        EndAlike
          (Value.expandTemplate (.ofExpression (.ofVariable op ⟨x, some .explode⟩)) c.toValue)
          (Value.expandTemplate (.ofExpression (.ofNames op names hne)) c'.toValue) ∧
        (o.separator = ",".toText → EndAlike
          (Value.expandTemplate (.ofExpression (.ofVariable op ⟨x, none⟩)) c.toValue)
          (Value.expandTemplate (.ofExpression (.ofNames op names hne)) c'.toValue))) ∧
    (o.named = true → ∀ pairs : Assoc, c.look x.text = .item (.assoc pairs) →
      List.Forall₂ (fun n p => p.1 = n.text ∧ c'.look n.text = .item (.atom p.2)) names
        pairs.entries →
          EndAlike
            (Value.expandTemplate (.ofExpression (.ofVariable op ⟨x, some .explode⟩)) c.toValue)
            (Value.expandTemplate (.ofExpression (.ofNames op names hne)) c'.toValue)) ∧
    (op = none ∨ op = Operator.ofSymbol? "+".toText ∨ op = Operator.ofSymbol? "#".toText →
      o.named = false ∧ o.separator = ",".toText) := by
  -- lists where no names are written, associations where they are, and the table for the comma
  refine ⟨?_, ?_, ?_⟩
  · intro hnamed ts hlook hmembers
    have hts : ts ≠ [] := ne_nil_of_forall₂ hmembers hne
    have hmany := writes_members hnamed x hmembers
    constructor
    · exact Expression.endAlike_of_writes ho hop rfl (VarSpec.writes_exploded_list hts hlook) hmany
    · intro hcomma
      exact Expression.endAlike_of_writes ho hop rfl
        (VarSpec.writes_list hnamed hcomma hts hlook) hmany
  · intro hnamed pairs hlook hmembers
    have hpairs : pairs.entries ≠ [] := ne_nil_of_forall₂ hmembers hne
    exact Expression.endAlike_of_writes ho hop rfl (VarSpec.writes_exploded_assoc hpairs hlook)
      (writes_pairs hnamed hmembers)
  · subst ho
    rintro (rfl | rfl | rfl)
    · exact ⟨rfl, rfl⟩
    · exact ⟨rfl, rfl⟩
    · exact ⟨rfl, rfl⟩

/-- A list with an empty member, and an association with an empty value. -/
theorem Value.expandTemplate_explode_empty :
    ∃ (plus query : Operator) (x a b : VarName) (pairs : Assoc) (c c' : Context),
      plus.named = false ∧ plus.separator = ",".toText ∧ query.named = true ∧
        c.look x.text = .item (.list ["%41é".toText, []]) ∧
        c'.look x.text = .item (.assoc pairs) ∧
        pairs.entries = [(a.text, []), (b.text, "1 2".toText)] ∧
        (Expression.ofVariable (some plus) ⟨x, some .explode⟩).format = "{+x*}".toText ∧
        Value.expandTemplate (.ofExpression (.ofVariable (some plus) ⟨x, some .explode⟩))
          c.toValue = .ok "%41%C3%A9,".toText ∧
        EndAlike
          (Value.expandTemplate (.ofExpression (.ofVariable (some plus) ⟨x, none⟩)) c.toValue)
          (Value.expandTemplate (.ofExpression (.ofNames (some plus) [a, b] (by simp))) c.toValue) ∧
        (Expression.ofNames (some query) [a, b] (by simp)).format = "{?a,b.c}".toText ∧
        Value.expandTemplate (.ofExpression (.ofNames (some query) [a, b] (by simp))) c'.toValue =
          .ok "?a=&b.c=1%202".toText ∧
        EndAlike
          (Value.expandTemplate (.ofExpression (.ofVariable (some query) ⟨x, some .explode⟩))
            c'.toValue)
          (Value.expandTemplate (.ofExpression (.ofNames (some query) [a, b] (by simp)))
            c'.toValue) := by
  let plus : Operator := .passing '+' []
  let query : Operator := .prefixing '?' '&' true "=".toText
  let x : VarName := ⟨"x".toText, by decide⟩
  let a : VarName := ⟨"a".toText, by decide⟩
  let b : VarName := ⟨"b.c".toText, by decide⟩
  let pairs : Assoc := ⟨[(a.text, []), (b.text, "1 2".toText)], by decide⟩
  let c : Context :=
    ⟨[(.text "x".toText, .list ["%41é".toText, []]), (.text "a".toText, .atom "%41é".toText),
      (.text "b.c".toText, .atom [])]⟩
  let c' : Context :=
    ⟨[(.text "a".toText, .atom []), (.text "b.c".toText, .atom "1 2".toText),
      (.text "x".toText, .assoc pairs)]⟩
  -- both cases of the theorem, at members that are empty
  have hlist := (Value.expandTemplate_explode (some plus) plus x [a, b] (by simp) c c rfl rfl).1 rfl
    ["%41é".toText, []] rfl (.cons rfl (.cons rfl .nil))
  have hassoc := (Value.expandTemplate_explode (some query) query x [a, b] (by simp) c' c' rfl
    rfl).2.1 rfl pairs rfl (.cons ⟨rfl, rfl⟩ (.cons ⟨rfl, rfl⟩ .nil))
  exact ⟨plus, query, x, a, b, pairs, c, c', rfl, rfl, rfl, rfl, rfl, rfl, by decide,
    by decide +kernel, hlist.2 rfl, by decide, by decide +kernel, hassoc⟩

end UriTemplate
