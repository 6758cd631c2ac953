import UriTemplate.Proofs.ParserComplete
import UriTemplate.Value.Expansion
import Mathlib.Data.List.Basic

/-!
# Parsing, writing and the grammar

What soundness and completeness of the rules say about whole texts.  Writing undoes parsing;
parsing undoes writing up to the merging of adjacent literals; and the texts that parse are
those of the grammar, as long as no prefix length has more digits than can be read.
-/

namespace UriTemplate

/-! ## Writing what was parsed -/

/-- A text is parsed as a value just if it is parsed as a template. -/
theorem Value.parse_text_eq_ok {t : Text} {T : Template} :
    Value.parse (.text t) = .ok T ↔ Template.parse t = .ok T := by
  show (Template.parse t).mapError Fault.parse = .ok T ↔ _
  exact mapError_eq_ok

/-- A text is refused as a value for the reason that it is refused as a template. -/
theorem Value.parse_text_eq_error {t : Text} {e : ParseError} (h : Template.parse t = .error e) :
    Value.parse (.text t) = .error (.parse e) := by
  show (Template.parse t).mapError Fault.parse = .error (.parse e)
  rw [h]
  rfl

/-- Writing a parsed template gives the text that it was parsed from. -/
theorem Value.format_of_parse {t : Text} {T : Template}
    (h : Value.parse (.text t) = .ok T) :
    T.format = t ∧ (Value.node (.template T)).toText = .ok t ∧
      (Value.node (.template T)).format = .ok (.text t) := by
  obtain ⟨hformat, -, hread⟩ := Template.parse_eq_ok (Value.parse_text_eq_ok.mp h)
  -- the lengths in a parsed text have been read, so that they can be written
  have htext : (Value.node (.template T)).toText = .ok t := by
    have hwritable : (Node.template T).isWritable = true := Node.isWritable_iff.mpr hread
    rw [Value.toText_node hwritable, Node.format, hformat]
  refine ⟨hformat, htext, ?_⟩
  rw [Value.format, htext]
  rfl

/-- Literals, a dotted name, operators that are separators too, and both modifiers. -/
theorem Value.format_of_parse_mixed :
    ∃ T : Template, Value.parse (.text "a.,b{.x.y:120,z*}{,w}".toText) = .ok T ∧
      T.format = "a.,b{.x.y:120,z*}{,w}".toText := by
  let T : Template :=
    ⟨[.literal ⟨"a.,b".toText, by decide, by decide⟩,
      .expression ⟨[⟨⟨"x.y".toText, by decide⟩, some (.limit ⟨120, by decide⟩)⟩,
        ⟨⟨"z".toText, by decide⟩, some .explode⟩], some (.prefixing '.' '.' false []), by decide⟩,
      .expression ⟨[⟨⟨"w".toText, by decide⟩, none⟩], some (.setAside ','), by decide⟩]⟩
  have hparse : Value.parse (.text "a.,b{.x.y:120,z*}{,w}".toText) = .ok T := by decide +kernel
  exact ⟨T, hparse, (Value.format_of_parse hparse).1⟩

/-! ## Parsing what was written -/

/-- Parsing the text of a template gives the template with its adjacent literals merged.  That
is the template itself just if no two literals are adjacent, and it expands as the template
does in every context. -/
theorem Value.parse_format (t : Template) (hreg : t.IsRegistered) (hread : t.IsReadable) :
    Value.parse (.text t.format) = .ok t.merged ∧
      (t.merged = t ↔ t.IsMerged) ∧ ((t.merged == t) = true ↔ t.IsMerged) ∧
      ∀ context : Value,
        Value.expand (.node (.template t.merged)) context =
          Value.expand (.node (.template t)) context := by
  refine ⟨?_, t.merged_eq_self_iff, t.merged_beq_self_iff, ?_⟩
  · rw [Value.parse_text_eq_ok]
    exact t.parse_format_eq hreg hread
  · -- only the parts are expanded, and merging leaves their expansions what they were
    intro context
    simp only [Value.expand, Value.expandTemplate, t.expand_merged]

/-- A template with two adjacent literals, and with expressions that meet. -/
theorem Value.parse_format_adjacent :
    ∃ t : Template, t.format = "a,{#x:7,y.z*}{w}b".toText ∧ ¬ t.IsMerged ∧
      Value.parse (.text "a,{#x:7,y.z*}{w}b".toText) = .ok t.merged := by
  let t : Template :=
    ⟨[.literal ⟨"a".toText, by decide, by decide⟩, .literal ⟨",".toText, by decide, by decide⟩,
      .expression ⟨[⟨⟨"x".toText, by decide⟩, some (.limit ⟨7, by decide⟩)⟩,
        ⟨⟨"y.z".toText, by decide⟩, some .explode⟩], some (.passing '#' "#".toText), by decide⟩,
      .expression ⟨[⟨⟨"w".toText, by decide⟩, none⟩], none, by decide⟩,
      .literal ⟨"b".toText, by decide, by decide⟩]⟩
  obtain ⟨hparse, hmerged, -, -⟩ := Value.parse_format t (by decide) (by decide)
  refine ⟨t, by decide, ?_, hparse⟩
  rw [← hmerged]
  decide

/-! ## Texts of the grammar -/

/-- No colon has more digits behind it than can be read as a number. -/
def Text.HasReadableLengths (t : Text) : Prop :=
  ∀ s u, t = s ++ .scalar ':' :: u → (u.takeWhile CodePoint.isDigit).length ≤ Text.digitLimit

/-- A variable is written within its expression. -/
theorem Expression.format_infix_of_mem (e : Expression) (v : VarSpec) (hv : v ∈ e.specs) :
    v.format <:+: e.format := by
  obtain ⟨specs, operator, hne⟩ := e
  have hlist : v.format <:+: ",".toText.intercalate (specs.map VarSpec.format) := by
    obtain ⟨w, ws, rfl⟩ := List.exists_cons_of_ne_nil hne
    rw [List.map_cons, Grammar.intercalate_comma]
    rcases List.mem_cons.mp hv with rfl | hv
    · exact (List.prefix_append _ _).isInfix
    · -- behind the first variable each one follows a comma
      have hcomma : .scalar ',' :: v.format ∈ (ws.map VarSpec.format).map (.scalar ',' :: ·) :=
        List.mem_map_of_mem (List.mem_map_of_mem hv)
      have hmore :
          .scalar ',' :: v.format <:+: (ws.map VarSpec.format).flatMap (.scalar ',' :: ·) :=
        List.infix_of_mem_flatten hcomma
      have htail := (List.suffix_cons (.scalar ',') v.format).isInfix.trans hmore
      exact htail.trans (List.suffix_append _ _).isInfix
  -- the list stands between the operator and the closing brace
  rw [Expression.format, VarSpec.formatAll]
  exact (hlist.trans (List.suffix_append _ _).isInfix).trans (List.prefix_append _ _).isInfix

/-- An expression is written within its template. -/
theorem Template.format_infix_of_mem (t : Template) (e : Expression) (he : e ∈ t.expressions) :
    e.format <:+: t.format := by
  -- the expressions of a template are parts of it
  have hmem : Part.expression e ∈ t.parts := by
    obtain ⟨p, hp, hpe⟩ := List.mem_filterMap.mp he
    cases p with
    | literal l => cases hpe
    | expression e' =>
      cases hpe
      exact hp
  exact List.infix_of_mem_flatten (List.mem_map_of_mem hmem)

/-- Where every colon of a template's text has few enough digits behind it, the prefix lengths
of the template can be read. -/
theorem Template.isReadable_of_format (t : Template) (h : t.format.HasReadableLengths) :
    t.IsReadable := by
  intro e he v hv n hn
  obtain ⟨pre, post, hpost⟩ :=
    (e.format_infix_of_mem v hv).trans (t.format_infix_of_mem e he)
  obtain ⟨name, modifier⟩ := v
  cases modifier with
  | none => cases hn
  | some m =>
    cases m with
    | explode => cases hn
    | limit length =>
      cases hn
      -- the digits behind the colon are those of the length, and perhaps more
      have hdigits := (Grammar.isLength_ofNat length.value length.positive).forall_isDigit
      have hcolon : t.format =
          (pre ++ name.text) ++ .scalar ':' :: (Text.ofNat length.value ++ post) := by
        rw [← hpost]
        simp [VarSpec.format, Modifier.format]
      have hle := h _ _ hcolon
      rw [List.takeWhile_append_of_pos hdigits, List.length_append] at hle
      omega

/-- Colons in a text that is not too long have few enough digits behind them. -/
theorem Text.hasReadableLengths_of_length (t : Text) (h : t.length ≤ Text.digitLimit) :
    t.HasReadableLengths := by
  intro s u hsu
  -- what stands behind a colon is shorter than the text
  have hle := (List.takeWhile_sublist (l := u) CodePoint.isDigit).length_le
  rw [hsu, List.length_append, List.length_cons] at h
  omega

/-- Where every colon has few enough digits behind it, no length is too long to be read. -/
theorem Template.parse_ne_oversized {t : Text} (h : t.HasReadableLengths) (digits : Nat) :
    Template.parse t ≠ .error (.oversizedLength digits) := by
  intro hparse
  -- the error names a place in the text, and the digits there contradict the premise
  cases Template.parse_eq_error hparse with
  | oversizedLength hreads hlong =>
    have hrest := hreads.rest
    rw [List.append_assoc] at hrest
    exact absurd (h _ _ hrest) (Nat.not_le_of_lt hlong)

/-- A text whose colons have few enough digits behind them is parsed just if it lies in the
language of templates; otherwise the error is one of syntax. -/
theorem Value.parse_iff_isTemplate (t : Text) (hlengths : t.HasReadableLengths) :
    ((∃ T, Value.parse (.text t) = .ok T) ↔ Grammar.IsTemplate t) ∧
      (¬ Grammar.IsTemplate t →
        ∃ f, Value.parse (.text t) = .error f ∧ f.kind = .templateSyntax) := by
  -- both sides are the canonical texts of templates with registered operators
  have hiff : (∃ T, Value.parse (.text t) = .ok T) ↔ Grammar.IsTemplate t := by
    rw [Grammar.isTemplate_iff]
    constructor
    · intro ⟨T, hT⟩
      obtain ⟨hformat, hreg, -⟩ := Template.parse_eq_ok (Value.parse_text_eq_ok.mp hT)
      exact ⟨T, hreg, hformat⟩
    · intro ⟨T, hreg, hformat⟩
      subst hformat
      have hread := T.isReadable_of_format hlengths
      exact ⟨T.merged, Value.parse_text_eq_ok.mpr (T.parse_format_eq hreg hread)⟩
  -- a text outside the language is refused, and only one of the three errors is not of syntax
  refine ⟨hiff, fun hnot => ?_⟩
  cases hparse : Template.parse t with
  | ok T => exact absurd (hiff.mp ⟨T, Value.parse_text_eq_ok.mpr hparse⟩) hnot
  | error e =>
    refine ⟨.parse e, Value.parse_text_eq_error hparse, ?_⟩
    cases Template.parse_eq_error hparse with
    | unexpected expected h => rfl
    | unclosed h hopen hclose => rfl
    | oversizedLength h hlong =>
      -- the place is behind a colon of the text
      have hrest := h.rest
      rw [List.append_assoc] at hrest
      exact absurd (hlengths _ _ hrest) (Nat.not_le_of_lt hlong)

/-- A length that begins with a zero is refused. -/
theorem Value.parse_iff_isTemplate_zero :
    ¬ Grammar.IsTemplate "{x:03}".toText ∧
      ∃ f, Value.parse (.text "{x:03}".toText) = .error f ∧ f.kind = .templateSyntax := by
  have hlengths := Text.hasReadableLengths_of_length "{x:03}".toText (by decide)
  obtain ⟨hiff, herror⟩ := Value.parse_iff_isTemplate "{x:03}".toText hlengths
  have hnot : ¬ Grammar.IsTemplate "{x:03}".toText := by
    rw [← hiff]
    intro ⟨T, hT⟩
    have hsome : (Value.parse (.text "{x:03}".toText)).toOption = none := by decide +kernel
    rw [hT] at hsome
    cases hsome
  exact ⟨hnot, herror hnot⟩

end UriTemplate
