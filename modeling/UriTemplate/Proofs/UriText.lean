import UriTemplate.Proofs.Encoding
import UriTemplate.Proofs.ParserCorrect
import UriTemplate.Proofs.SequentialExpansion

/-!
# Expansions are texts of URI characters

Every expansion consists of unreserved characters, reserved characters and percent-encoded
triplets (`isUriText_of_expandTemplate`), whatever the values are.  What enters from a value has
been encoded, and what a template adds itself (literals, names, the texts of operators) has no
percent sign at all.  Texts of this form can be put next to each other, so that nothing has to
be known about the places where they meet.
-/

namespace UriTemplate

/-! ## What templates add -/

/-- Literal characters are unreserved or reserved. -/
theorem isUriText_literal (l : Literal) : IsUriText l.text := by
  refine .of_forall fun c hc => ?_
  have hlit := l.allowed c hc
  simp only [CodePoint.isLiteral, CodePoint.isUnreserved, CodePoint.isReserved, CodePoint.within,
    List.any_cons, List.any_nil, Bool.or_false, Bool.or_eq_true, Bool.and_eq_true,
    decide_eq_true_eq] at hlit ⊢
  omega

/-- Name characters are unreserved: they are letters, digits and the underscore. -/
theorem isUnreserved_of_isVarchar {c : CodePoint} (h : c.isVarchar = true) :
    c.isUnreserved = true := by
  simp only [CodePoint.isVarchar, CodePoint.isUnreserved, CodePoint.within, List.any_cons,
    List.any_nil, Bool.or_false, Bool.or_eq_true, Bool.and_eq_true, decide_eq_true_eq] at h ⊢
  omega

/-- The characters of names are unreserved. -/
theorem isUnreserved_of_mem_name (n : VarName) : ∀ c ∈ n.text, c.isUnreserved = true := by
  intro c hc
  rcases Grammar.forall_mem_name n c hc with h | rfl
  · exact isUnreserved_of_isVarchar h
  · decide

/-- So a name is a URI text, and stays one where an operator writes it. -/
theorem isUriText_name (n : VarName) : IsUriText n.text :=
  .of_forall fun c hc => .inl (isUnreserved_of_mem_name n c hc)

namespace Operator

/-- The texts that an operator adds to values are URI texts. -/
structure AddsUriText (o : Operator) : Prop where
  first : IsUriText o.first
  separator : IsUriText o.separator
  ifEmpty : IsUriText o.ifEmpty

/-- The operators of the table add delimiters. -/
theorem addsUriText_of_mem {o : Operator} (ho : o ∈ simple :: registered) : o.AddsUriText := by
  -- the table is finite, so that all its texts can be looked through at once
  have hplain : ∀ o ∈ simple :: registered, ∀ t ∈ [o.first, o.separator, o.ifEmpty],
      ∀ c ∈ t, c.isUnreserved = true ∨ c.isReserved = true := by decide
  have h := hplain o ho
  constructor
  · exact .of_forall (h o.first (by simp))
  · exact .of_forall (h o.separator (by simp))
  · exact .of_forall (h o.ifEmpty (by simp))

variable {o : Operator} {name key value : Text}

/-- The equals sign between a name and a text is reserved, and keeps them apart. -/
theorem isUriText_withName (ho : o.AddsUriText) (hname : IsUriText name)
    (hvalue : IsUriText value) : IsUriText (o.withName name value) := by
  unfold withName
  split
  · -- a name with an empty text, a name with another text, no name
    split
    · exact hname.append ho.ifEmpty
    · exact hname.append (.plain _ value (.inr (by decide)) hvalue)
  · exact hvalue

/-- So does the one between a key and its value. -/
theorem isUriText_member (ho : o.AddsUriText) (hkey : IsUriText key)
    (hvalue : IsUriText value) : IsUriText (o.member key value) := by
  unfold member
  split
  · exact isUriText_withName ho hkey hvalue
  · exact hkey.append (.plain _ value (.inr (by decide)) hvalue)

/-- The defined texts of an expression are joined with nothing but what the operator adds. -/
theorem isUriText_join (ho : o.AddsUriText) {texts : List Text}
    (h : ∀ t ∈ texts, IsUriText t) : IsUriText (o.join texts) := by
  unfold join
  split
  · exact .nil
  · exact ho.first.append (.intercalate ho.separator texts h)

end Operator

/-! ## Expansions -/

/-- The comma between the members of a collection. -/
theorem isUriText_comma : IsUriText ",".toText := .of_forall (by decide)

namespace VarSpec

variable {v : VarSpec} {o : Operator} {s : Text}

/-- What is written for a single text has been encoded, but for the name in front of it. -/
theorem isUriText_renderAtom (ho : o.AddsUriText) {t : Text} (h : v.renderAtom o t = .ok s) :
    IsUriText s := by
  obtain ⟨value, hvalue, hs⟩ := bind_eq_ok.mp h
  rw [pure_eq_ok] at hs
  subst hs
  exact Operator.isUriText_withName ho (isUriText_name v.name)
    (Percent.isUriText_encodeFrom hvalue)

/-- The members of a list are encoded one by one, before anything is put between them. -/
theorem isUriText_renderList (ho : o.AddsUriText) {ts : List Text}
    (h : v.renderList o ts = .ok s) : IsUriText s := by
  obtain ⟨values, hvalues, hs⟩ := bind_eq_ok.mp h
  rw [pure_eq_ok] at hs
  subst hs
  -- each member is a URI text by itself, so that no triplet is torn where two of them meet
  have hmembers : ∀ value ∈ values, IsUriText value :=
    forall_of_mapM_eq_ok (fun _ _ henc => Percent.isUriText_encodeFrom henc) hvalues
  split
  · -- exploded: each member stands under the name
    refine .intercalate ho.separator _ (List.forall_mem_map.mpr fun value hvalue => ?_)
    exact Operator.isUriText_withName ho (isUriText_name v.name) (hmembers value hvalue)
  · -- not exploded: commas in one value
    exact Operator.isUriText_withName ho (isUriText_name v.name)
      (.intercalate isUriText_comma values hmembers)

/-- So are the keys and the values of an association. -/
theorem isUriText_renderAssoc (ho : o.AddsUriText) {pairs : Assoc}
    (h : v.renderAssoc o pairs = .ok s) : IsUriText s := by
  obtain ⟨values, hvalues, hs⟩ := bind_eq_ok.mp h
  rw [pure_eq_ok] at hs
  subst hs
  have hmembers : ∀ q ∈ values, IsUriText q.1 ∧ IsUriText q.2 := by
    refine forall_of_mapM_eq_ok (fun p q henc => ?_) hvalues
    obtain ⟨hkey, hvalue⟩ := Sequential.encodePair_eq_ok henc
    exact ⟨Percent.isUriText_encodeFrom hkey, Percent.isUriText_encodeFrom hvalue⟩
  split
  · -- exploded: each key stands for a name
    refine .intercalate ho.separator _ (List.forall_mem_map.mpr fun q hq => ?_)
    exact Operator.isUriText_member ho (hmembers q hq).1 (hmembers q hq).2
  · -- not exploded: commas between keys and values
    refine Operator.isUriText_withName ho (isUriText_name v.name)
      (.intercalate isUriText_comma _ (List.forall_mem_map.mpr fun q hq => ?_))
    exact (hmembers q hq).1.append (.plain _ q.2 (.inr (by decide)) (hmembers q hq).2)

/-- Whatever item a variable is bound to, what is written for it is a URI text. -/
theorem isUriText_render {β : Type} (ho : o.AddsUriText) {i : Item β}
    (h : v.render o i = .ok s) : IsUriText s := by
  cases i with
  | atom t => exact isUriText_renderAtom ho (render_atom_eq_ok.mp h)
  | list ts => exact isUriText_renderList ho (render_list_eq_ok.mp h).2
  | assoc pairs => exact isUriText_renderAssoc ho (render_assoc_eq_ok.mp h).2
  | bare value => exact absurd h render_bare_ne_ok

/-- A variable that is not defined gives no text at all. -/
theorem isUriText_expand? {β : Type} {look : Text → Binding β} (ho : o.AddsUriText)
    {text? : Option Text} (h : v.expand? look o = .ok text?) : ∀ t ∈ text?, IsUriText t := by
  rintro t rfl
  rcases expand?_eq_ok.mp h with ⟨-, hnone⟩ | ⟨i, -, ⟨-, hnone⟩ | ⟨-, s, hs, hsome⟩⟩
  · cases hnone
  · cases hnone
  · cases hsome
    exact isUriText_render ho hs

end VarSpec

variable {β : Type} {look : Text → Binding β}

/-- An expression joins the texts of its defined variables. -/
theorem Expression.isUriText_expand {e : Expression} {s : Text}
    (ho : e.effectiveOperator.AddsUriText) (h : e.expand look = .ok s) : IsUriText s := by
  obtain ⟨-, texts?, htexts, rfl⟩ := Expression.expand_eq_ok.mp h
  have hdefined : ∀ text? ∈ texts?, ∀ t ∈ text?, IsUriText t :=
    forall_of_mapM_eq_ok (fun _ _ hv => VarSpec.isUriText_expand? ho hv) htexts
  -- only the defined ones are left when the texts are joined
  refine Operator.isUriText_join ho fun t ht => ?_
  obtain ⟨text?, hmem, hsome⟩ := List.mem_filterMap.mp ht
  exact hdefined text? hmem t hsome

/-- A template is a row of literals and expansions, each of them a URI text. -/
theorem Template.isUriText_expand (ps : List Part)
    (hops : ∀ e ∈ Template.expressions ⟨ps⟩, e.effectiveOperator.AddsUriText) {s : Text}
    (h : Template.expand look ⟨ps⟩ = .ok s) : IsUriText s := by
  -- the text is split as the parts are: that of the first one, then that of the others
  induction ps generalizing s with
  | nil =>
    rw [Template.expand_nil] at h
    cases h
    exact .nil
  | cons p ps ih =>
    rw [Template.expand_cons] at h
    obtain ⟨t, hp, hrest⟩ := bind_eq_ok.mp h
    obtain ⟨u, hps, hs⟩ := bind_eq_ok.mp hrest
    rw [pure_eq_ok] at hs
    subst hs
    cases p with
    | literal l =>
      cases hp
      exact (isUriText_literal l).append (ih hops hps)
    | expression e =>
      have hhead := Expression.isUriText_expand (hops e List.mem_cons_self) hp
      exact hhead.append (ih (fun e' he' => hops e' (List.mem_cons_of_mem _ he')) hps)

/-- The variable `x` alone, under the operator that lets reserved characters pass. -/
def passingX : Expression :=
  ⟨[⟨⟨"x".toText, by decide⟩, none⟩], some (.passing '+' []), by decide⟩

/-- The text that this expression is parsed from. -/
theorem parse_passingX : Template.parse "{+x}".toText = .ok ⟨[.expression passingX]⟩ := by
  decide +kernel

/-- A URI text that is bound to `x` is what the expression expands to. -/
theorem expand_passingX {s : Text} (h : IsUriText s)
    (hlook : look "x".toText = .item (.atom s)) : passingX.expand look = .ok s :=
  Expression.expand_ofVariable rfl rfl hlook ((Percent.encode_eq_self_iff s).mpr h)

/-- Whatever expands gives a URI text.  Neither another expansion, where reserved characters
pass, nor encoding under the policy by which they pass changes it. -/
theorem Value.isUriText_of_expandTemplate (t : Template) (c : Context) (s : Text)
    (hops : Sequential.IsTabled t) (h : Value.expandTemplate t c.toValue = .ok s) :
    IsUriText s ∧ Value.encode (.text s) true = .ok s ∧
      Value.expand (.text "{+x}".toText) (.map [(.text "x".toText, .text s)]) = .ok s := by
  have hexpand : t.expand c.look = .ok s := mapError_eq_ok.mp h
  have huri : IsUriText s := Template.isUriText_expand t.parts
    (fun e he => Operator.addsUriText_of_mem (Sequential.effectiveOperator_mem (hops e he))) hexpand
  refine ⟨huri, mapError_eq_ok.mpr ((Percent.encode_eq_self_iff s).mpr huri), ?_⟩
  -- the text is parsed, and its only variable is bound to the text that was expanded before
  have hparse : Value.parse (.text "{+x}".toText) = .ok ⟨[.expression passingX]⟩ :=
    Value.parse_text_eq_ok.mpr parse_passingX
  have hcontext : Context.ofValue (.map [(.text "x".toText, .text s)]) =
      .ok ⟨[(.text "x".toText, .atom s)]⟩ := rfl
  have hlook : Context.look ⟨[(.text "x".toText, .atom s)]⟩ "x".toText = .item (.atom s) := by
    simp [Context.look, Entries.get?]
  have hwhole : Template.expand (Context.look ⟨[(.text "x".toText, .atom s)]⟩)
      ⟨[.expression passingX]⟩ = .ok s := by
    rw [Template.expand_cons, Part.expand, expand_passingX huri hlook]
    exact congrArg Except.ok (List.append_nil s)
  refine bind_eq_ok.mpr ⟨_, hparse, bind_eq_ok.mpr ⟨_, hcontext, mapError_eq_ok.mpr hwhole⟩⟩

/-- A triplet that is cut short in one value is not completed by the next value or by a literal. -/
theorem Value.isUriText_of_expandTemplate_cut :
    ∃ (t : Template) (c : Context),
      t.format = "{+x,y}41".toText ∧
        c.look "x".toText = .item (.atom "é%e9%4".toText) ∧
        c.look "y".toText = .item (.list ["1%".toText]) ∧
        Value.expandTemplate t c.toValue = .ok "%C3%A9%e9%254,1%2541".toText ∧
        IsUriText "%C3%A9%e9%254,1%2541".toText := by
  let t : Template :=
    ⟨[.expression ⟨[⟨⟨"x".toText, by decide⟩, none⟩, ⟨⟨"y".toText, by decide⟩, none⟩],
        some (.passing '+' []), by decide⟩,
      .literal ⟨"41".toText, by decide, by decide⟩]⟩
  let c : Context :=
    ⟨[(.text "x".toText, .atom "é%e9%4".toText), (.text "y".toText, .list ["1%".toText])]⟩
  have hexpand : Value.expandTemplate t c.toValue = .ok "%C3%A9%e9%254,1%2541".toText := by
    decide +kernel
  have hx : c.look "x".toText = .item (.atom "é%e9%4".toText) := rfl
  have hy : c.look "y".toText = .item (.list ["1%".toText]) := rfl
  have hops : Sequential.IsTabled t := by decide
  exact ⟨t, c, by decide, hx, hy, hexpand,
    (Value.isUriText_of_expandTemplate t c _ hops hexpand).1⟩

end UriTemplate
