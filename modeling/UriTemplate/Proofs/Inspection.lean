import UriTemplate.Proofs.Grammar
import UriTemplate.Proofs.Merging
import UriTemplate.Value.Key

/-!
# Inspection forms

The inspection form of a node is put together from quoted texts, digits, brackets, commas and the
names of kinds, and the text of a literal may itself hold brackets, commas, parentheses and equals
signs.  Nevertheless it can be read in one way only.  Each form shows its own end, whatever stands
behind it (`Text.SelfDelimiting`): nothing that is quoted in a node holds a quote or a backslash, a
list goes on behind a comma and ends at a bracket, and arguments go on or end in the same way.

So the form of a node shows which node it is, as far as its operators are registered ones
(`Node.eq_of_inspect`).  Nodes are compared by their keys (`Node.beq_iff`), in which an operator is
its symbol; the form shows no more of it, so that equal nodes have the same form
(`Node.inspect_eq_of_beq`).
-/

namespace UriTemplate

/-! ## Quoted texts without escapes -/

/-- The characters that stand between single quotes as they are: printable ASCII but for the single
quote and the backslash. -/
def CodePoint.isPlain (c : CodePoint) : Bool := c.within [(0x20, 0x26), (0x28, 0x5B), (0x5D, 0x7E)]

/-- The characters of literals stand between quotes as they are. -/
theorem isPlain_of_isLiteral {c : CodePoint} (h : c.isLiteral = true) : c.isPlain = true := by
  simp only [CodePoint.isLiteral, CodePoint.isPlain, CodePoint.within, List.any_cons,
    List.any_nil, Bool.or_false, Bool.or_eq_true, Bool.and_eq_true, decide_eq_true_eq] at h ⊢
  omega

/-- So do those of names. -/
theorem isPlain_of_isVarchar {c : CodePoint} (h : c.isVarchar = true) : c.isPlain = true := by
  simp only [CodePoint.isVarchar, CodePoint.isPlain, CodePoint.within, List.any_cons,
    List.any_nil, Bool.or_false, Bool.or_eq_true, Bool.and_eq_true, decide_eq_true_eq] at h ⊢
  omega

/-- A plain character needs no escape. -/
theorem quoteCodePoint_of_isPlain {c : CodePoint} (h : c.isPlain = true) :
    Text.quoteCodePoint '\'' c = [c] := by
  have hrange : 0x20 ≤ c.toNat ∧ c.toNat < 0x7F := by
    simp only [CodePoint.isPlain, CodePoint.within, List.any_cons, List.any_nil, Bool.or_false,
      Bool.or_eq_true, Bool.and_eq_true, decide_eq_true_eq] at h
    omega
  cases c with
  | surrogate n =>
    -- surrogates lie far above
    simp only [CodePoint.toNat] at hrange
    omega
  | scalar c =>
    have hne (d : Char) (hd : (CodePoint.scalar d).isPlain = false) : c ≠ d := by
      rintro rfl
      rw [h] at hd
      cases hd
    have hnone : Text.commonEscape? '\'' c = none := by
      simp [Text.commonEscape?, hne '\'' (by decide), hne '\\' (by decide), hne '\t' (by decide),
        hne '\n' (by decide), hne '\r' (by decide)]
    have hprintable : (CodePoint.scalar c).isPrintable = true := by
      rw [CodePoint.isPrintable, if_pos (by omega)]
      simpa using hrange
    simp only [Text.quoteCodePoint, CodePoint.char?, Option.bind_some, hnone, hprintable, if_true]

/-- A text of plain characters stands between single quotes as it is. -/
theorem Text.quoted_of_isPlain {t : Text} (h : ∀ c ∈ t, c.isPlain = true) :
    t.quoted = .scalar '\'' :: (t ++ [.scalar '\'']) := by
  have hquote : CodePoint.scalar '\'' ∉ t := fun hmem => absurd (h _ hmem) (by decide)
  have hfor : quoteFor t = '\'' := by
    simp [quoteFor, hquote]
  have hmap : t.flatMap (quoteCodePoint '\'') = t := by
    rw [List.flatMap_congr fun c hc => quoteCodePoint_of_isPlain (h c hc)]
    exact List.flatMap_singleton' t
  simp only [quoted, hfor, hmap, List.cons_append]

/-- The characters of names are plain. -/
theorem VarName.isPlain (n : VarName) : ∀ c ∈ n.text, c.isPlain = true := by
  intro c hc
  rcases Grammar.forall_mem_name n c hc with h | rfl
  · exact isPlain_of_isVarchar h
  · decide

/-! ## Texts that show their end -/

namespace Text

/-- How the arguments of an application end, with another one or without. -/
def lastArgument : Option Text → Text
  | none => ")".toText
  | some t => ", ".toText ++ (t ++ ")".toText)

/-- An application begins with its first argument, and may go on with another one. -/
theorem application_cons (kind : String) (t : Text) (o : Option Text) :
    application kind (t :: o.toList) = kind.toText ++ "(".toText ++ (t ++ lastArgument o) := by
  cases o with
  | none => simp [application, commaList, lastArgument]
  | some u => simp [application, commaList, lastArgument]

/-- A list without members is a pair of brackets. -/
theorem bracketed_nil {α : Type} (f : α → Text) :
    bracketed (([] : List α).map f) = "[".toText ++ "]".toText := rfl

/-- Behind the first member the others follow, each behind a comma. -/
theorem bracketed_cons {α : Type} (f : α → Text) (a : α) (as : List α) :
    bracketed ((a :: as).map f) =
      "[".toText ++ (f a ++ (as.flatMap (fun a => ", ".toText ++ f a) ++ "]".toText)) := by
  rw [bracketed, commaList, List.map_cons, Grammar.intercalate_cons, List.flatMap_map,
    List.append_assoc, List.append_assoc]

/-- The texts of values show their end: whatever stands behind one of them, there is one value that
it is the text of, and one place where it ends. -/
def SelfDelimiting {α : Type} (good : α → Prop) (f : α → Text) : Prop :=
  ∀ a b s t, good a → good b → f a ++ s = f b ++ t → a = b ∧ s = t

namespace SelfDelimiting

variable {α β : Type} {good : α → Prop} {good' : β → Prop} {f : α → Text} {g : β → Text}

/-- So two values with the same text are the same. -/
theorem eq_of_eq (h : SelfDelimiting good f) {a b : α} (ha : good a) (hb : good b)
    (hab : f a = f b) : a = b :=
  (h a b [] [] ha hb (by rw [hab])).1

/-- A value that is known from another one has its text. -/
theorem comap (h : SelfDelimiting good' g) {i : α → β} (hi : ∀ a b, i a = i b → a = b)
    (hgood : ∀ a, good a → good' (i a)) (hf : ∀ a, f a = g (i a)) : SelfDelimiting good f := by
  intro a b s t ha hb hab
  rw [hf, hf] at hab
  obtain ⟨heq, hst⟩ := h (i a) (i b) s t (hgood a ha) (hgood b hb) hab
  exact ⟨hi a b heq, hst⟩

/-- What stands in front of all texts does not matter. -/
theorem prepend (h : SelfDelimiting good f) (head : Text) :
    SelfDelimiting good fun a => head ++ f a := by
  intro a b s t ha hb hab
  rw [List.append_assoc, List.append_assoc] at hab
  exact h a b s t ha hb (List.append_cancel_left hab)

/-- The same text on either side does not matter. -/
theorem enclose (h : SelfDelimiting good f) (before after : Text) :
    SelfDelimiting good fun a => before ++ f a ++ after := by
  intro a b s t ha hb hab
  simp only [List.append_assoc] at hab
  obtain ⟨rfl, hrest⟩ := h a b _ _ ha hb (List.append_cancel_left hab)
  exact ⟨rfl, List.append_cancel_left hrest⟩

/-- Two texts that show their end do so one behind the other. -/
theorem append (hf : SelfDelimiting good f) (hg : SelfDelimiting good' g) :
    SelfDelimiting (fun x : α × β => good x.1 ∧ good' x.2) fun x => f x.1 ++ g x.2 := by
  rintro ⟨a, b⟩ ⟨a', b'⟩ s t ⟨ha, hb⟩ ⟨ha', hb'⟩ heq
  simp only [List.append_assoc] at heq
  obtain ⟨rfl, hrest⟩ := hf a a' _ _ ha ha' heq
  obtain ⟨rfl, rfl⟩ := hg b b' s t hb hb' hrest
  exact ⟨rfl, rfl⟩

/-- A character that does not stand in a text shows its end. -/
theorem closed {c : CodePoint} (hc : ∀ a, good a → c ∉ f a)
    (hinj : ∀ a b, good a → good b → f a = f b → a = b) :
    SelfDelimiting good fun a => f a ++ [c] := by
  -- the text is found again as what stands in front of the first such character
  have hrun (a : α) (ha : good a) (s : Text) : (f a ++ c :: s).takeWhile (· != c) = f a := by
    rw [List.takeWhile_append_of_pos fun x hx => bne_iff_ne.mpr (ne_of_mem_of_not_mem hx (hc a ha)),
      List.takeWhile_cons_of_neg (by simp), List.append_nil]
  intro a b s t ha hb hab
  simp only [List.append_assoc, List.singleton_append] at hab
  have heq : f a = f b := by rw [← hrun a ha s, hab, hrun b hb t]
  rw [heq] at hab
  exact ⟨hinj a b ha hb heq, (List.cons.inj (List.append_cancel_left hab)).2⟩

/-- The closing quote is the first quote behind the opening one. -/
theorem quoted (hplain : ∀ a, good a → ∀ c ∈ f a, c.isPlain = true)
    (hinj : ∀ a b, good a → good b → f a = f b → a = b) :
    SelfDelimiting good fun a => (f a).quoted := by
  have hclosed : SelfDelimiting good fun a => f a ++ [.scalar '\''] :=
    closed (fun a ha hmem => absurd (hplain a ha _ hmem) (by decide)) hinj
  intro a b s t ha hb hab
  simp only [quoted_of_isPlain (hplain a ha), quoted_of_isPlain (hplain b hb)] at hab
  exact hclosed a b s t ha hb (List.cons.inj hab).2

/-- Behind a comma the members of a list go on, and a bracket ends them. -/
theorem members (hf : SelfDelimiting good f) :
    SelfDelimiting (fun as : List α => ∀ a ∈ as, good a)
      fun as => as.flatMap (fun a => ", ".toText ++ f a) ++ "]".toText := by
  intro as
  -- the induction goes along the first list; the other one has to end at the same bracket
  induction as with
  | nil =>
    intro bs s t _ _ hab
    cases bs with
    | nil => exact ⟨rfl, List.append_cancel_left hab⟩
    | cons b bs => cases hab
  | cons a as ih =>
    intro bs s t has hbs hab
    cases bs with
    | nil => cases hab
    | cons b bs =>
      rw [List.forall_mem_cons] at has hbs
      simp only [List.flatMap_cons, List.append_assoc] at hab
      obtain ⟨rfl, hrest⟩ := hf a b _ _ has.1 hbs.1 (List.append_cancel_left hab)
      simp only [← List.append_assoc] at hrest
      obtain ⟨rfl, rfl⟩ := ih bs s t has.2 hbs.2 hrest
      exact ⟨rfl, rfl⟩

/-- The brackets of a list show whether it has members, if no member begins with a bracket. -/
theorem bracketed (hf : SelfDelimiting good f)
    (hhead : ∀ a, ∃ x rest, f a = x :: rest ∧ x ≠ .scalar ']') :
    SelfDelimiting (fun as : List α => ∀ a ∈ as, good a) fun as => Text.bracketed (as.map f) := by
  have hne (a : α) (u s : Text) : f a ++ u ≠ .scalar ']' :: s := by
    obtain ⟨x, rest, hfa, hx⟩ := hhead a
    rw [hfa]
    exact fun h => hx (List.cons.inj h).1
  intro as bs s t has hbs hab
  -- whether there is a first member shows in what stands behind the opening bracket
  cases as with
  | nil =>
    cases bs with
    | nil => exact ⟨rfl, List.append_cancel_left hab⟩
    | cons b bs =>
      -- a member would begin with the closing bracket
      simp only [bracketed_nil, bracketed_cons, List.append_assoc] at hab
      exact absurd (List.append_cancel_left hab).symm (hne b _ s)
  | cons a as =>
    cases bs with
    | nil =>
      simp only [bracketed_nil, bracketed_cons, List.append_assoc] at hab
      exact absurd (List.append_cancel_left hab) (hne a _ t)
    | cons b bs =>
      rw [List.forall_mem_cons] at has hbs
      have hpair := ((hf.append hf.members).prepend "[".toText) (a, as) (b, bs) s t has hbs
      simp only [bracketed_cons] at hab
      obtain ⟨heq, hst⟩ := hpair hab
      cases heq
      exact ⟨rfl, hst⟩

/-- The argument that an application may have at its end. -/
theorem lastArgument (hg : SelfDelimiting good' g) :
    SelfDelimiting (fun o : Option β => ∀ b ∈ o, good' b) fun o => Text.lastArgument (o.map g) := by
  intro o o' s t ho ho' heq
  -- a parenthesis or a comma shows whether the argument is there
  cases o with
  | none =>
    cases o' with
    | none => exact ⟨rfl, List.append_cancel_left heq⟩
    | some b => cases heq
  | some a =>
    cases o' with
    | none => cases heq
    | some b =>
      simp only [Option.map_some, Text.lastArgument, List.append_assoc] at heq
      obtain ⟨rfl, hrest⟩ := hg a b _ _ (ho a rfl) (ho' b rfl) (List.append_cancel_left heq)
      exact ⟨rfl, List.append_cancel_left hrest⟩

/-- An application to a single argument. -/
theorem argument (hf : SelfDelimiting good f) (kind : String) :
    SelfDelimiting good fun a => .application kind [f a] := by
  have h := hf.enclose (kind.toText ++ "(".toText) ")".toText
  simpa only [Text.application, commaList, List.intercalate_singleton] using h

/-- An application to an argument, and perhaps to another one. -/
theorem application (hf : SelfDelimiting good f) (hg : SelfDelimiting good' g) (kind : String) :
    SelfDelimiting (fun x : α × Option β => good x.1 ∧ ∀ b ∈ x.2, good' b)
      fun x => .application kind (f x.1 :: (x.2.map g).toList) := by
  have h := (hf.append hg.lastArgument).prepend (kind.toText ++ "(".toText)
  simpa only [application_cons] using h

end SelfDelimiting

end Text

/-! ## Nodes -/

section Nodes

open Text

/-- A length is known from its digits. -/
theorem MaxLength.eq_of_format {m n : MaxLength} (h : Text.ofNat m.value = Text.ofNat n.value) :
    m = n := by
  have hvalue := congrArg Text.decimal h
  rw [Text.decimal_ofNat, Text.decimal_ofNat] at hvalue
  cases m
  cases n
  cases hvalue
  rfl

/-- Modifiers show their end: a length by the parenthesis behind its digits, and the other one by
itself. -/
theorem selfDelimiting_modifier : SelfDelimiting (fun _ => True) Modifier.inspect := by
  -- the digits of a length end at the parenthesis
  have hclosed : SelfDelimiting (fun _ => True) fun n : MaxLength =>
      Text.ofNat n.value ++ [.scalar ')'] :=
    .closed (fun n _ hmem => absurd
        ((Grammar.isLength_ofNat n.value n.positive).forall_isDigit _ hmem) (by decide))
      fun _ _ _ _ => MaxLength.eq_of_format
  intro a b s t _ _ hab
  -- the two modifiers differ in their first characters
  cases a with
  | limit m =>
    cases b with
    | limit n =>
      have hdigits : Text.ofNat m.value ++ [.scalar ')'] ++ s =
          Text.ofNat n.value ++ [.scalar ')'] ++ t := by
        simp only [Modifier.inspect, application, commaList, List.intercalate_singleton,
          List.append_assoc] at hab
        rw [List.append_assoc, List.append_assoc]
        exact List.append_cancel_left (List.append_cancel_left hab)
      obtain ⟨rfl, hst⟩ := hclosed m n s t trivial trivial hdigits
      exact ⟨rfl, hst⟩
    | explode => cases hab
  | explode =>
    cases b with
    | limit n => cases hab
    | explode => exact ⟨rfl, List.append_cancel_left hab⟩

/-- Names show their end by the closing quote. -/
theorem selfDelimiting_name : SelfDelimiting (fun _ => True) fun n : VarName => n.text.quoted := by
  refine .quoted (fun n _ => n.isPlain) fun a b _ _ hab => ?_
  cases a
  cases b
  cases hab
  rfl

/-- So do variables, whose modifier is an argument that may be missing. -/
theorem selfDelimiting_spec : SelfDelimiting (fun _ => True) VarSpec.inspect := by
  refine (selfDelimiting_name.application selfDelimiting_modifier "VariableSpec").comap
    (i := fun v => (v.name, v.modifier)) ?_ (fun _ _ => ⟨trivial, fun _ _ => trivial⟩) fun _ => rfl
  rintro ⟨n, m⟩ ⟨n', m'⟩ hab
  cases hab
  rfl

/-- Literals show their end by the closing quote, whatever else stands in them. -/
theorem selfDelimiting_literal : SelfDelimiting (fun _ => True) Literal.inspect := by
  have hquoted : SelfDelimiting (fun _ => True) fun l : Literal => l.text.quoted := by
    refine .quoted (fun l _ c hc => isPlain_of_isLiteral (l.allowed c hc)) fun a b _ _ hab => ?_
    cases a
    cases b
    cases hab
    rfl
  exact hquoted.argument "Literal"

/-- The registered operators have symbols of their own, without quotes and backslashes. -/
theorem selfDelimiting_operator : SelfDelimiting (· ∈ Operator.registered) Operator.inspect := by
  -- the registry is a short list, which is gone through
  have hplain : ∀ o ∈ Operator.registered, ∀ c ∈ o.symbol, c.isPlain = true := by decide
  have hinj : ∀ o ∈ Operator.registered, ∀ o' ∈ Operator.registered,
      o.symbol = o'.symbol → o = o' := by decide
  have hquoted : SelfDelimiting (· ∈ Operator.registered) fun o => o.symbol.quoted :=
    .quoted hplain fun o o' ho ho' => hinj o ho o' ho'
  exact hquoted.enclose "get_operator(".toText ")".toText

/-- Expressions show their end, as far as their operators are registered ones. -/
theorem selfDelimiting_expression : SelfDelimiting Expression.IsRegistered Expression.inspect := by
  have hspecs := selfDelimiting_spec.bracketed fun v => ⟨.scalar 'V', _, rfl, by decide⟩
  have hoperator := selfDelimiting_operator.prepend "operator=".toText
  refine (hspecs.application hoperator "Expression").comap (i := fun e => (e.specs, e.operator)) ?_
    (fun e he => ⟨fun _ _ => trivial, he⟩) fun e => ?_
  · rintro ⟨specs, operator, hne⟩ ⟨specs', operator', hne'⟩ hab
    cases hab
    rfl
  · rw [Expression.inspect, VarSpec.inspectAll, Option.map_map]
    rfl

/-- The operator of an expression that is a part is a registered one. -/
def Part.IsRegistered : Part → Prop
  | .literal _ => True
  | .expression e => e.IsRegistered

/-- So do parts, whose kind shows in the first character. -/
theorem selfDelimiting_part : SelfDelimiting Part.IsRegistered Part.inspect := by
  intro p q s t hp hq hpq
  cases p with
  | literal l =>
    cases q with
    | literal l' =>
      obtain ⟨rfl, hst⟩ := selfDelimiting_literal l l' s t trivial trivial hpq
      exact ⟨rfl, hst⟩
    | expression e => cases hpq
  | expression e =>
    cases q with
    | literal l => cases hpq
    | expression e' =>
      obtain ⟨rfl, hst⟩ := selfDelimiting_expression e e' s t hp hq hpq
      exact ⟨rfl, hst⟩

/-- The operators in a template are those in its parts. -/
theorem Template.forall_parts_isRegistered (t : Template) :
    (∀ p ∈ t.parts, p.IsRegistered) ↔ t.IsRegistered := by
  obtain ⟨ps⟩ := t
  induction ps with
  | nil => simp [IsRegistered]
  | cons p ps ih =>
    -- literals have no operator
    cases p with
    | literal l => simpa [Part.IsRegistered, IsRegistered] using ih
    | expression e => simpa [Part.IsRegistered, IsRegistered] using fun _ => ih

/-- So do templates. -/
theorem selfDelimiting_template : SelfDelimiting Template.IsRegistered Template.inspect := by
  -- no part begins with the bracket that closes the list
  have hhead (p : Part) : ∃ x rest, p.inspect = x :: rest ∧ x ≠ .scalar ']' := by
    cases p with
    | literal l => exact ⟨.scalar 'L', _, rfl, by decide⟩
    | expression e => exact ⟨.scalar 'E', _, rfl, by decide⟩
  refine ((selfDelimiting_part.bracketed hhead).argument "Template").comap
    (i := Template.parts) ?_ (fun t => t.forall_parts_isRegistered.mpr) fun _ => rfl
  rintro ⟨ps⟩ ⟨qs⟩ rfl
  rfl

/-- The operators in a node are registered ones. -/
def Node.IsRegistered : Node → Prop
  | .expression e => e.IsRegistered
  | .template t => t.IsRegistered
  | _ => True

instance (n : Node) : Decidable n.IsRegistered :=
  match n with
  | .expression e => inferInstanceAs (Decidable e.IsRegistered)
  | .template t => inferInstanceAs (Decidable t.IsRegistered)
  | .limit _ | .explode | .spec _ | .literal _ => .isTrue trivial

/-- The form of a node begins with the name of its kind. -/
theorem Node.kind_eq_of_inspect {m n : Node} (h : m.inspect = n.inspect) :
    Value.nodeKind m = Value.nodeKind n := by
  let kinds := ["Prefix", "Explode", "VariableSpec", "Literal", "Expression", "Template"]
  have hmem (n : Node) : Value.nodeKind n ∈ kinds := by cases n <;> simp [kinds, Value.nodeKind]
  have hopening : ∀ k ∈ kinds, ∀ c ∈ k.toText, (c != .scalar '(') = true := by decide
  have hinj : ∀ k ∈ kinds, ∀ k' ∈ kinds, k.toText = k'.toText → k = k' := by decide
  -- up to the first parenthesis the form is the name of the kind
  have hname (n : Node) : n.inspect.takeWhile (· != .scalar '(') = (Value.nodeKind n).toText := by
    have hform (args : List Text) :
        (application (Value.nodeKind n) args).takeWhile (· != .scalar '(') =
          (Value.nodeKind n).toText := by
      rw [application, List.append_assoc, List.append_assoc,
        List.takeWhile_append_of_pos (hopening _ (hmem n))]
      exact List.append_nil _
    cases n <;> exact hform _
  refine hinj _ (hmem m) _ (hmem n) ?_
  rw [← hname m, h, hname n]

/-- The form of a node shows which node it is. -/
theorem Node.eq_of_inspect {m n : Node} (hm : m.IsRegistered) (hn : n.IsRegistered)
    (h : m.inspect = n.inspect) : m = n := by
  have hkind := kind_eq_of_inspect h
  -- of one kind, the forms are told apart by what this kind shows
  cases m with
  | limit length => cases n with
    | limit length' =>
      have hlimit := selfDelimiting_modifier.eq_of_eq (a := .limit length) (b := .limit length')
        trivial trivial h
      cases hlimit
      rfl
    | _ => simp [Value.nodeKind] at hkind
  | explode => cases n with
    | explode => rfl
    | _ => simp [Value.nodeKind] at hkind
  | spec v => cases n with
    | spec v' => rw [selfDelimiting_spec.eq_of_eq trivial trivial h]
    | _ => simp [Value.nodeKind] at hkind
  | literal l => cases n with
    | literal l' => rw [selfDelimiting_literal.eq_of_eq trivial trivial h]
    | _ => simp [Value.nodeKind] at hkind
  | expression e => cases n with
    | expression e' => rw [selfDelimiting_expression.eq_of_eq hm hn h]
    | _ => simp [Value.nodeKind] at hkind
  | template t => cases n with
    | template t' => rw [selfDelimiting_template.eq_of_eq hm hn h]
    | _ => simp [Value.nodeKind] at hkind

end Nodes

/-! ## Equality and keys -/

/-- Expressions are compared by their variables and the symbols of their operators. -/
theorem Expression.beq_iff {e e' : Expression} :
    (e == e') = true ↔ KeyToken.ofExpression e = KeyToken.ofExpression e' := by
  have hoperator : (e.operator == e'.operator) = true ↔
      e.operator.map Operator.symbol = e'.operator.map Operator.symbol := by
    cases e.operator with
    | none => cases e'.operator <;> simp
    | some o => cases e'.operator <;> simp [Operator.beq_iff]
  change (e.specs == e'.specs && e.operator == e'.operator) = true ↔ _
  rw [Bool.and_eq_true, beq_iff_eq, hoperator, KeyToken.ofExpression, KeyToken.ofExpression,
    KeyToken.expression.injEq]

/-- Parts are compared by their keys. -/
theorem Part.beq_iff {p q : Part} : (p == q) = true ↔ KeyToken.ofPart p = KeyToken.ofPart q := by
  -- a literal is never equal to an expression
  cases p with
  | literal l =>
    cases q with
    | literal l' =>
      change (l == l') = true ↔ KeyToken.literal l.text = KeyToken.literal l'.text
      rw [beq_iff_eq, KeyToken.literal.injEq, Literal.mk.injEq]
    | expression e => exact iff_of_false (by nofun) (by nofun)
  | expression e =>
    cases q with
    | literal l => exact iff_of_false (by nofun) (by nofun)
    | expression e' => exact Expression.beq_iff

/-- Parts are compared one by one. -/
theorem Part.beq_list_iff {ps qs : List Part} :
    (ps == qs) = true ↔ ps.map KeyToken.ofPart = qs.map KeyToken.ofPart := by
  -- the lists are compared member by member, and differ where one of them ends first
  induction ps generalizing qs with
  | nil => cases qs <;> simp
  | cons p ps ih => cases qs with
    | nil => simp
    | cons q qs => simp [Part.beq_iff, ih]

/-- Two nodes are equal just if they have the same key. -/
theorem Node.beq_iff {m n : Node} : (m == n) = true ↔ KeyToken.ofNode m = KeyToken.ofNode n := by
  -- nodes of two kinds are never equal, and their keys never are
  cases m with
  | limit length => cases n with
    | limit length' =>
      change (length == length') = true ↔ [KeyToken.limit length.value] = [.limit length'.value]
      rw [beq_iff_eq, List.singleton_inj, KeyToken.limit.injEq, MaxLength.mk.injEq]
    | _ => exact iff_of_false (by nofun) (by nofun)
  | explode => cases n with
    | explode => exact iff_of_true rfl rfl
    | _ => exact iff_of_false (by nofun) (by nofun)
  | spec v => cases n with
    | spec v' =>
      change (v == v') = true ↔ [KeyToken.spec v] = [.spec v']
      rw [beq_iff_eq, List.singleton_inj, KeyToken.spec.injEq]
    | _ => exact iff_of_false (by nofun) (by nofun)
  | literal l => cases n with
    | literal l' =>
      change (l == l') = true ↔ [KeyToken.literal l.text] = [.literal l'.text]
      rw [beq_iff_eq, List.singleton_inj, KeyToken.literal.injEq, Literal.mk.injEq]
    | _ => exact iff_of_false (by nofun) (by nofun)
  | expression e => cases n with
    | expression e' =>
      change (e == e') = true ↔ [KeyToken.ofExpression e] = [.ofExpression e']
      rw [Expression.beq_iff, List.singleton_inj]
    | _ => exact iff_of_false (by nofun) (by nofun)
  | template t => cases n with
    | template t' =>
      change (t.parts == t'.parts) = true ↔
        KeyToken.template t.parts.length :: t.parts.map KeyToken.ofPart =
          .template t'.parts.length :: t'.parts.map KeyToken.ofPart
      rw [Part.beq_list_iff, List.cons.injEq, KeyToken.template.injEq]
      refine ⟨fun h => ⟨?_, h⟩, And.right⟩
      simpa only [List.length_map] using congrArg List.length h
    | _ => exact iff_of_false (by nofun) (by nofun)

/-- The form of an expression is made from its key. -/
theorem Expression.inspect_eq_of_key {e e' : Expression}
    (h : KeyToken.ofExpression e = KeyToken.ofExpression e') : e.inspect = e'.inspect := by
  rw [KeyToken.ofExpression, KeyToken.ofExpression, KeyToken.expression.injEq] at h
  have hlookup (o : Option Operator) : o.map Operator.inspect =
      (o.map Operator.symbol).map fun symbol => Operator.lookup symbol.quoted := by
    rw [Option.map_map]
    rfl
  rw [inspect, inspect, hlookup, hlookup, h.1, h.2]

/-- The form of a part is made from its key. -/
theorem Part.inspect_eq_of_key {p q : Part} (h : KeyToken.ofPart p = KeyToken.ofPart q) :
    p.inspect = q.inspect := by
  cases p with
  | literal l => cases q with
    | literal l' =>
      rw [KeyToken.ofPart, KeyToken.ofPart, KeyToken.literal.injEq] at h
      rw [inspect, inspect, Literal.inspect, Literal.inspect, h]
    | expression e => cases h
  | expression e => cases q with
    | literal l => cases h
    | expression e' => exact Expression.inspect_eq_of_key h

/-- So are the forms of many parts. -/
theorem Part.map_inspect_eq_of_key {ps qs : List Part}
    (h : ps.map KeyToken.ofPart = qs.map KeyToken.ofPart) :
    ps.map inspect = qs.map inspect := by
  induction ps generalizing qs with
  | nil => rw [List.map_eq_nil_iff.mp h.symm]
  | cons p ps ih => cases qs with
    | nil => cases h
    | cons q qs =>
      rw [List.map_cons, List.map_cons, List.cons.injEq] at h
      rw [List.map_cons, List.map_cons, inspect_eq_of_key h.1, ih h.2]

/-- Equal nodes are of the same kind. -/
theorem Node.kind_eq_of_beq {m n : Node} (h : (m == n) = true) :
    Value.nodeKind m = Value.nodeKind n := by
  cases m <;> cases n <;> first | rfl | cases h

/-- Equal nodes have the same form. -/
theorem Node.inspect_eq_of_beq {m n : Node} (h : (m == n) = true) : m.inspect = n.inspect := by
  rw [beq_iff] at h
  -- kind by kind, the form is made from the key
  cases m with
  | limit length => cases n with
    | limit length' =>
      obtain ⟨value, _⟩ := length
      obtain ⟨value', _⟩ := length'
      cases h
      rfl
    | _ => cases h
  | explode => cases n with
    | explode => rfl
    | _ => cases h
  | spec v => cases n with
    | spec v' =>
      cases h
      rfl
    | _ => cases h
  | literal l => cases n with
    | literal l' =>
      obtain ⟨text, _, _⟩ := l
      obtain ⟨text', _, _⟩ := l'
      cases h
      rfl
    | _ => cases h
  | expression e => cases n with
    | expression e' => exact Expression.inspect_eq_of_key (List.singleton_inj.mp h)
    | _ => cases h
  | template t => cases n with
    | template t' =>
      rw [inspect, inspect, Template.inspect, Template.inspect,
        Part.map_inspect_eq_of_key (List.cons.inj h).2]
    | _ => cases h

namespace Value

/-- Nodes are compared as nodes, whatever they are compared for. -/
theorem equal_node (a b : Node) : equal (.node a) (.node b) = .ok (a == b) := by
  rw [equal, equalNode]

/-- The inspection form of a node identifies it: two nodes whose operators are registered ones, and
whose prefix lengths have no more digits than can be written, are equal just if they have the same
form.  Equality of nodes is an equivalence, and equal nodes have the same kind and the same key. -/
theorem inspect_identifies_node :
    (∀ a b : Node, a.IsRegistered → b.IsRegistered → a.IsReadable → b.IsReadable → ∃ r s t,
      equal (.node a) (.node b) = .ok r ∧ inspect (.node a) = .ok s ∧ inspect (.node b) = .ok t ∧
      (r = true ↔ s = t)) ∧
    Equivalence (fun a b : Node => equal (.node a) (.node b) = .ok true) ∧
    ∀ a b : Node, equal (.node a) (.node b) = .ok true →
      kind (.node a) = kind (.node b) ∧ ∃ k, key (.node a) = .ok k ∧ key (.node b) = .ok k := by
  have hequal (a b : Node) : equal (.node a) (.node b) = .ok true ↔
      KeyToken.ofNode a = KeyToken.ofNode b := by
    rw [equal_node, Except.ok.injEq, Node.beq_iff]
  -- the form, the equivalence and what equal nodes share
  refine ⟨fun a b ha hb hlengths hlengths' => ?_, ?_, fun a b h => ?_⟩
  · refine ⟨a == b, a.inspect, b.inspect, equal_node a b,
      inspect_node (Node.isWritable_iff.mpr hlengths),
      inspect_node (Node.isWritable_iff.mpr hlengths'), Node.inspect_eq_of_beq, fun h => ?_⟩
    cases Node.eq_of_inspect ha hb h
    exact Node.beq_iff.mpr rfl
  · -- equality is that of the keys
    simp only [hequal]
    exact eq_equivalence.comap KeyToken.ofNode
  · rw [hequal] at h
    exact ⟨Node.kind_eq_of_beq (Node.beq_iff.mpr h), _, rfl, congrArg Except.ok h.symm⟩

/-- A literal that is written like two literals next to each other is told apart from them by the
quotes. -/
theorem inspect_identifies_node_literals :
    ∃ l l₁ l₂ : Literal, l.text = "a),Literal(b".toText ∧
      l₁.text = "a".toText ∧ l₂.text = "b".toText ∧
      ∃ s t, inspect (.node (.template ⟨[.literal l]⟩)) = .ok s ∧
        inspect (.node (.template ⟨[.literal l₁, .literal l₂]⟩)) = .ok t ∧ s ≠ t := by
  refine ⟨⟨"a),Literal(b".toText, by decide, by decide⟩, ⟨"a".toText, by decide, by decide⟩,
    ⟨"b".toText, by decide, by decide⟩, rfl, rfl, rfl, ?_⟩
  obtain ⟨r, s, t, hr, hs, ht, hiff⟩ := inspect_identifies_node.1
    (.template ⟨[.literal ⟨"a),Literal(b".toText, by decide, by decide⟩]⟩)
    (.template ⟨[.literal ⟨"a".toText, by decide, by decide⟩,
      .literal ⟨"b".toText, by decide, by decide⟩]⟩) (by decide) (by decide) (by decide)
    (by decide)
  refine ⟨s, t, hs, ht, fun h => ?_⟩
  -- the templates have different numbers of parts
  have hequal := hiff.mpr h
  rw [equal_node, hequal, Except.ok.injEq] at hr
  cases hr

end Value

end UriTemplate
