import UriTemplate.Proofs.ParserComplete
import UriTemplate.Value.Rule

/-!
# Constructors and rules

Names and literals are checked in two places: where a variable or a literal is made from a text,
and where the grammar reads one.  The first check splits the whole text at its dots, or looks at
each of its characters; the second one takes one run after the other from a column on.  They come
to the same (`Value.constructors_agree_with_rules`): a text is accepted just if its rule reads all
of it, and what a rule reads anywhere is accepted.
-/

namespace UriTemplate

/-! ## Constructors -/

/-- A name is made from its own text and from no other. -/
theorem VarName.ofText_eq_ok {t : Text} {n : VarName} : VarName.ofText t = .ok n ↔ n.text = t := by
  unfold VarName.ofText
  constructor
  · intro h
    split at h
    · cases h
      rfl
    · cases h
  · rintro rfl
    rw [dif_pos n.valid]

/-- So is a literal. -/
theorem Literal.ofText_eq_ok {t : Text} {l : Literal} : Literal.ofText t = .ok l ↔ l.text = t := by
  unfold Literal.ofText
  constructor
  · intro h
    split at h
    · cases h
    · split at h
      · cases h
        rfl
      · cases h
  · rintro rfl
    rw [dif_neg l.nonempty, dif_pos l.allowed]

namespace Value

/-- A variable that is made from a text alone has this text as its name. -/
theorem toVarSpec_text_eq_ok {t : Text} {v : VarSpec} :
    toVarSpec (.text t) .null = .ok v ↔ v.name.text = t ∧ v.modifier = none := by
  obtain ⟨name, modifier⟩ := v
  simp only [toVarSpec, toVarName, toModifier?, bind_eq_ok, pure_eq_ok, mapError_eq_ok,
    VarName.ofText_eq_ok]
  constructor
  · rintro ⟨n, rfl, m, hm, heq⟩
    cases hm
    cases heq
    exact ⟨rfl, rfl⟩
  · rintro ⟨rfl, rfl⟩
    exact ⟨name, rfl, none, rfl, rfl⟩

/-- A literal is made from a text value as from the text. -/
theorem toLiteral_text_eq_ok {t : Text} {l : Literal} :
    toLiteral (.text t) = .ok l ↔ l.text = t :=
  mapError_eq_ok.trans Literal.ofText_eq_ok

end Value

/-! ## Rules -/

namespace Cursor

/-- What leads from the beginning of a text to its end is all of the text. -/
theorem Reads.eq_all {t run : Text} {c : Cursor} (h : Reads (.ofText t 0) run c) :
    c.column = t.length ↔ run = t ∧ c = ⟨t.length, []⟩ := by
  obtain ⟨column, rest⟩ := c
  obtain ⟨hrest, hcolumn⟩ := h
  simp only [ofText, List.drop_zero, Nat.zero_add] at hrest hcolumn
  subst hrest hcolumn
  simp

/-- The rule for names reads all of a text just if the text is a name. -/
theorem variableName_all_iff {t : Text} :
    (∃ c, (ofText t 0).variableName = .ok (t, c) ∧ c.column = t.length) ↔ t.isVarname = true := by
  constructor
  · intro ⟨c, hname, _⟩
    exact isVarname_of_variableName hname
  · intro hvalid
    -- a valid name stops nowhere before the end of the text
    refine ⟨⟨t.length, []⟩, variableName_complete t hvalid ⟨?_, ?_⟩ (Text.stops_nil _), rfl⟩
    · simp [ofText]
    · simp [ofText]

/-- The rule for literals reads all of a text just if the text is that of the literal. -/
theorem literal?_all_iff {t : Text} {l : Literal} :
    (∃ c, (ofText t 0).literal? = some (l, c) ∧ c.column = t.length) ↔ l.text = t := by
  constructor
  · intro ⟨c, hl, hcolumn⟩
    exact ((literal?_reads hl).eq_all.mp hcolumn).1
  · rintro rfl
    refine ⟨⟨l.text.length, []⟩, literal?_complete l ⟨?_, ?_⟩ (Text.stops_nil _), rfl⟩
    · simp [ofText]
    · simp [ofText]

end Cursor

namespace Value

/-- The rule for names gives the name that it reads. -/
theorem readRule_variableName_eq_ok {t : Text} {column e : Nat} {v : Value} :
    readRule (.text t) .variableName column = .ok (v, e) ↔
      ∃ n c, (Cursor.ofText t column).variableName = .ok (n, c) ∧ v = .text n ∧ e = c.column := by
  simp only [readRule, Rule.read]
  cases (Cursor.ofText t column).variableName with
  | error err => simp [Except.map]
  | ok r =>
    obtain ⟨n, c⟩ := r
    simp [Except.map, eq_comm]

/-- The rule for literals gives the literal that it reads, or nothing. -/
theorem readRule_literal_eq_ok {t : Text} {column e : Nat} {v : Value} :
    readRule (.text t) .literal column = .ok (v, e) ↔
      (∃ l c, (Cursor.ofText t column).literal? = some (l, c) ∧ v = .node (.literal l) ∧
        e = c.column) ∨
      ((Cursor.ofText t column).literal? = none ∧ v = .null ∧ e = column) := by
  simp only [readRule, Rule.read]
  cases (Cursor.ofText t column).literal? with
  | none => simp [Cursor.ofText, eq_comm]
  | some r =>
    obtain ⟨l, c⟩ := r
    simp [eq_comm]

/-- A text is accepted as a name just if the rule for names reads all of it, and as a literal just
if the rule for literals reads all of it, as that literal.  Whatever the two rules read, at any
column of any text, is accepted, and the rule for literals gives nothing else but nothing. -/
theorem constructors_agree_with_rules :
    (∀ t : Text,
      ((∃ v, toVarSpec (.text t) .null = .ok v) ↔ isVarname (.text t) = .ok true) ∧
      ((∃ v, toVarSpec (.text t) .null = .ok v) ↔
        readRule (.text t) .variableName 0 = .ok (.text t, t.length)) ∧
      ∀ l, toLiteral (.text t) = .ok l ↔
        readRule (.text t) .literal 0 = .ok (.node (.literal l), t.length)) ∧
    ∀ (t : Text) (column : Nat) (v : Value) (e : Nat),
      (readRule (.text t) .variableName column = .ok (v, e) →
        ∃ spec, toVarSpec v .null = .ok spec ∧ v = .text spec.name.text) ∧
      (readRule (.text t) .literal column = .ok (v, e) →
        v = .null ∧ e = column ∨
          ∃ l, v = .node (.literal l) ∧ toLiteral (.text l.text) = .ok l) := by
  -- without a modifier only the name is checked
  have haccepted (t : Text) : (∃ v, toVarSpec (.text t) .null = .ok v) ↔ t.isVarname = true := by
    simp only [toVarSpec_text_eq_ok]
    constructor
    · rintro ⟨v, rfl, -⟩
      exact v.name.valid
    · intro hvalid
      exact ⟨⟨⟨t, hvalid⟩, none⟩, rfl, rfl⟩
  -- at column 0, reading the whole text is what the checks ask for
  refine ⟨fun t => ⟨?_, ?_, fun l => ?_⟩, fun t column v e => ⟨fun h => ?_, fun h => ?_⟩⟩
  · rw [haccepted, isVarname, Except.ok.injEq]
  · rw [haccepted, ← Cursor.variableName_all_iff, readRule_variableName_eq_ok]
    simp [eq_comm]
  · rw [toLiteral_text_eq_ok, ← Cursor.literal?_all_iff, readRule_literal_eq_ok]
    simp [eq_comm]
  · -- whatever a rule has read is accepted, wherever it was read
    obtain ⟨n, c, hname, rfl, -⟩ := readRule_variableName_eq_ok.mp h
    have hvalid := Cursor.isVarname_of_variableName hname
    exact ⟨⟨⟨n, hvalid⟩, none⟩, toVarSpec_text_eq_ok.mpr ⟨rfl, rfl⟩, rfl⟩
  · rcases readRule_literal_eq_ok.mp h with ⟨l, c, -, rfl, -⟩ | ⟨-, rfl, rfl⟩
    · exact .inr ⟨l, rfl, toLiteral_text_eq_ok.mpr rfl⟩
    · exact .inl ⟨rfl, rfl⟩

/-- A name with a dot in it, alone and in front of what continues an expression, and a text with two
dots in a row; and the literal behind an expression. -/
theorem constructors_agree_with_rules_dots :
    readRule (.text "a.b_1".toText) .variableName 0 = .ok (.text "a.b_1".toText, 5) ∧
      (∃ v, toVarSpec (.text "a.b_1".toText) .null = .ok v) ∧
      isVarname (.text "a..b".toText) = .ok false ∧
      (¬ ∃ v, toVarSpec (.text "a..b".toText) .null = .ok v) ∧
      readRule (.text "x{a.b_1:3}/y".toText) .variableName 2 = .ok (.text "a.b_1".toText, 7) ∧
      (∃ spec, toVarSpec (.text "a.b_1".toText) .null = .ok spec ∧
        Value.text "a.b_1".toText = .text spec.name.text) ∧
      ∃ l : Literal, l.text = "/y".toText ∧
        readRule (.text "x{a.b_1:3}/y".toText) .literal 10 = .ok (.node (.literal l), 12) ∧
        toLiteral (.text l.text) = .ok l := by
  obtain ⟨hall, hread⟩ := constructors_agree_with_rules
  -- from the first column to the last, and behind a brace
  have hwhole : readRule (.text "a.b_1".toText) .variableName 0 = .ok (.text "a.b_1".toText, 5) :=
    readRule_variableName_eq_ok.mpr ⟨_, ⟨5, []⟩, by decide +kernel, rfl, rfl⟩
  have hinside : readRule (.text "x{a.b_1:3}/y".toText) .variableName 2 =
      .ok (.text "a.b_1".toText, 7) :=
    readRule_variableName_eq_ok.mpr ⟨_, ⟨7, ":3\x7d/y".toText⟩, by decide +kernel, rfl, rfl⟩
  let l : Literal := ⟨"/y".toText, by decide, by decide⟩
  have hliteral : readRule (.text "x{a.b_1:3}/y".toText) .literal 10 =
      .ok (.node (.literal l), 12) := rfl
  have hdots : isVarname (.text "a..b".toText) = .ok false := rfl
  refine ⟨hwhole, (hall _).2.1.mpr hwhole, hdots, fun hv => ?_, hinside,
    (hread _ _ _ _).1 hinside, l, rfl, hliteral, ?_⟩
  · rw [(hall _).1, hdots] at hv
    cases hv
  · -- the rule has read something, so that it is the literal
    rcases (hread _ _ _ _).2 hliteral with ⟨hnull, -⟩ | ⟨l', hl, haccepted⟩
    · cases hnull
    · cases hl
      exact haccepted

end Value

end UriTemplate
