import UriTemplate.Proofs.ParserSound
import UriTemplate.Value.Rule

/-!
# What the rules read

Each rule of the grammar is applied at a column of a text.  It reads what it returns: the text
between the two columns is what the value is written as, and it is not empty.  A rule that returns
nothing stays where it is, and one that fails does so at the column or behind it
(`Value.Advances`).  Within the parser the places of a rule are cursors (`Cursor.Advances`); the
rules of the parser come with what they read (`Cursor.Sound`), which is what a value is written as
in each case.

So the loop over the parts of a text gets further with every part, and it ends
(`Value.PartLoop`).
-/

namespace UriTemplate

namespace Value

/-- What a rule reads to return a value: the canonical texts of variables, with commas between
them, and otherwise the text of the value. -/
def written : Value → Except Fault Text
  | list vs => (toTexts vs).map fun ts => ",".toText.intercalate ts
  | v => v.toText

/-- A piece that was read has no length with too many digits, and it is written as its canonical
text. -/
theorem written_node {n : Node} (h : n.IsReadable) : written (.node n) = .ok n.format :=
  toText_node (Node.isWritable_iff.mpr h)

/-- So are several variables. -/
theorem toTexts_specs {vs : List VarSpec} (h : ∀ v ∈ vs, v.IsReadable) :
    toTexts (vs.map fun v => .node (.spec v)) = .ok (vs.map VarSpec.format) := by
  -- variable by variable, none of which is refused
  induction vs with
  | nil => rfl
  | cons v vs ih =>
    obtain ⟨hv, hvs⟩ := List.forall_mem_cons.mp h
    have hspec : (node (.spec v)).toText = .ok v.format := written_node hv
    rw [List.map_cons, toTexts, hspec, ih hvs]
    rfl

/-- Variables are written with commas between them. -/
theorem written_specs {vs : List VarSpec} (h : ∀ v ∈ vs, v.IsReadable) :
    written (.list (vs.map fun v => .node (.spec v))) =
      .ok (",".toText.intercalate (vs.map VarSpec.format)) := by
  rw [written, toTexts_specs h]
  rfl

/-- A length that was read is written with the digits that were read. -/
theorem written_int {n : Nat} (h : (Text.ofNat n).length ≤ Text.digitLimit) :
    written (.int n) = .ok (Text.ofNat n) := by
  have hshort : n < Nat.pow 10 Text.digitLimit := (Grammar.length_ofNat_le_iff (by decide)).mp h
  -- a natural number is written without a sign
  have hdigits : Text.ofInt n = Text.ofNat n := by
    rw [Text.ofInt, if_neg (Int.not_lt.mpr (Int.natCast_nonneg n)), Int.natAbs_natCast]
  have htext : Text.ofInt? n = some (Text.ofNat n) := by
    rw [Text.ofInt?, Int.natAbs_natCast, if_pos hshort, hdigits]
  have hint : intText n = .ok (Text.ofNat n) := by
    unfold intText
    simp only [htext]
  simp only [written, toText, inspect, hint]

/-- What a rule does at a column of a text.  It returns null and stays, or it returns what is
written between the column and a later one in the text; if it fails for what the text is, then not
in front of the column. -/
def Advances (t : Text) (column : Nat) : Reading → Prop
  | .ok (v, behind) => v = .null ∧ behind = column ∨
      v ≠ .null ∧ column < behind ∧ behind ≤ t.length ∧
        v.written = .ok ((t.take behind).drop column)
  | .error e => ∃ p, e = .fault (.parse p) ∧ ∀ place ∈ p.column?, column ≤ place

/-- The loop over the parts of a text, at a column and with the parts that it has collected.  It is
done at the end of the text, fails where no part can be read, and goes on behind a part that it has
read, further in the text. -/
inductive PartLoop (t : Text) : Nat → List Part → Reading → Prop
  | done {column : Nat} {ps : List Part} (hend : t.length ≤ column) :
      PartLoop t column ps (.ok (.node (.template ⟨ps⟩), column))
  | fail {column : Nat} {ps : List Part} {e : RuleError} (hlt : column < t.length)
      (he : readRule (.text t) .part column = .error e) : PartLoop t column ps (.error e)
  | step {column next : Nat} {ps : List Part} {p : Part} {r : Reading} (hlt : column < t.length)
      (hp : readRule (.text t) .part column = .ok (p.toValue, next)) (hnext : column < next)
      (hle : next ≤ t.length) (hrest : PartLoop t next (ps ++ [p]) r) : PartLoop t column ps r

end Value

namespace Cursor

/-! ## Places in a text -/

section Places

variable {t run : Text} {pos : Nat} {c c' : Cursor}

/-- A place in a text is given by its column. -/
theorem Reads.eq_ofText (h : Reads (ofText t pos) run c') : c' = ofText t c'.column := by
  obtain ⟨column, rest⟩ := c'
  obtain ⟨hrest, rfl⟩ := h
  -- behind what was read stands the rest of the text
  have hdrop : t.drop (pos + run.length) = rest := by
    rw [← List.drop_drop]
    exact (congrArg (List.drop run.length) hrest).trans List.drop_left
  rw [ofText, ← hdrop]
  rfl

/-- What is read is the text between two columns. -/
theorem Reads.slice (h : Reads (ofText t pos) run c') (hne : run ≠ []) :
    pos < c'.column ∧ c'.column ≤ t.length ∧ (t.take c'.column).drop pos = run := by
  have hcolumn : c'.column = pos + run.length := h.column
  have hrest : t.drop pos = run ++ c'.rest := h.rest
  -- counting what is left shows that the place is still in the text
  have hlength := congrArg List.length hrest
  rw [List.length_drop, List.length_append] at hlength
  have hpos := List.length_pos_iff.mpr hne
  refine ⟨by omega, by omega, ?_⟩
  rw [List.drop_take, hrest, hcolumn, Nat.add_sub_cancel_left, List.take_left]

/-- What leads further has read something. -/
theorem Reads.ne_nil (h : Reads c run c') (hlt : c'.rest.length < c.rest.length) : run ≠ [] := by
  rintro rfl
  rw [h.rest, List.nil_append] at hlt
  exact Nat.lt_irrefl _ hlt

/-- A rule does not fail in front of the place where it begins. -/
theorem Fails.column_le {e : ParseError} (h : Fails c e) :
    ∀ place ∈ e.column?, c.column ≤ place := by
  intro place hplace
  -- every failure is at a place that was got to, or at none
  cases h with
  | unexpected expected h =>
    cases hplace
    rw [h.column]
    exact Nat.le_add_right _ _
  | unclosed h hopen hclose =>
    cases hplace
    rw [h.column]
    exact Nat.le_add_right _ _
  | oversizedLength h hlong => cases hplace

end Places

/-! ## Rules -/

/-- What a rule does from a place: it stays there with null, or reads what its value is written as,
or does not fail in front of the place. -/
def Advances (c : Cursor) : Except ParseError (Value × Cursor) → Prop
  | .ok (v, c') => v = .null ∧ c' = c ∨
      v ≠ .null ∧ ∃ run, v.written = .ok run ∧ run ≠ [] ∧ Reads c run c'
  | .error e => ∀ place ∈ e.column?, c.column ≤ place

section Rules

variable {c c' : Cursor}

/-- What a rule of the parser reads is what its value is written as. -/
theorem Sound.advances {α : Type} {format : α → Text} {good : α → Prop}
    {r : Except ParseError (α × Cursor)} {f : α → Value} (h : Sound c format good r)
    (hf : ∀ a c', r = .ok (a, c') → Reads c (format a) c' → good a → Advances c (.ok (f a, c'))) :
    Advances c (r.map fun (a, c) => (f a, c)) := by
  cases r with
  | error e => exact Fails.column_le h
  | ok p => exact hf p.1 p.2 rfl h.1 h.2

/-- A rule that returns a piece of a template reads the canonical text of the piece. -/
theorem advances_node {n : Node} (h : Reads c n.format c') (hread : n.IsReadable)
    (hlt : c'.rest.length < c.rest.length) : Advances c (.ok (.node n, c')) :=
  .inr ⟨nofun, n.format, Value.written_node hread, h.ne_nil hlt, h⟩

/-- A rule may return nothing where it begins. -/
theorem advances_null (c : Cursor) : Advances c (.ok (.null, c)) := .inl ⟨rfl, rfl⟩

/-- A part is a literal or an expression, and never nothing. -/
theorem part_advances (c : Cursor) : Advances c (Rule.part.read c) := by
  refine (part_sound c).advances fun p c' hp hreads hgood => ?_
  -- which of the two it is decides only how it is written
  cases p with
  | literal l => exact advances_node (n := .literal l) hreads trivial (part_rest_lt hp)
  | expression e => exact advances_node (n := .expression e) hreads hgood.2 (part_rest_lt hp)

/-- A literal is read, or there is none and the rule stays. -/
theorem literal_advances (c : Cursor) : Advances c (Rule.literal.read c) := by
  unfold Rule.read
  -- the run of literal characters is empty, or it is the literal
  cases hl : c.literal? with
  | none => exact advances_null c
  | some r =>
    exact advances_node (n := .literal r.1) (literal?_reads hl) trivial (literal?_rest_lt hl)

/-- An expression is read, or no brace opens one and the rule stays. -/
theorem expression_advances (c : Cursor) : Advances c (Rule.expression.read c) := by
  refine (expression?_sound c).advances fun e c' he hreads hgood => ?_
  -- without an opening brace the rule stays
  rcases expression?_rest he with ⟨rfl, rfl⟩ | ⟨hsome, hlt⟩
  · exact advances_null c'
  · obtain ⟨e, rfl⟩ := Option.isSome_iff_exists.mp hsome
    exact advances_node (n := .expression e) hreads (hgood e rfl).2 hlt

/-- An operator is a single character, or there is none. -/
theorem operator_advances (c : Cursor) : Advances c (Rule.operator.read c) := by
  obtain ⟨hreads, hreg⟩ := operator?_sound c
  change Advances c (.ok (.ofOption .operator c.operator?.1, c.operator?.2))
  cases ho : c.operator?.1 with
  | none =>
    rw [ho] at hreads
    exact .inl ⟨rfl, hreads.eq_of_nil⟩
  | some o =>
    rw [ho] at hreads
    -- the symbol is not empty, since it is that of a registered operator
    have hlength := Operator.registered_symbol_length o (hreg o ho)
    have hne : o.symbol ≠ [] := List.length_pos_iff.mp (by omega)
    exact .inr ⟨nofun, o.symbol, rfl, hne, hreads⟩

/-- The list is never empty, and what is read are its variables and the commas between them. -/
theorem variableList_advances (c : Cursor) : Advances c (Rule.variableList.read c) :=
  (variableList_sound c).advances
    (f := fun vs => .list (vs.val.map fun v => .node (.spec v))) fun _ _ hvs hreads hgood =>
      .inr ⟨nofun, _, Value.written_specs hgood, hreads.ne_nil (variableList_rest_lt hvs), hreads⟩

/-- A variable is read with its modifier. -/
theorem variableSpec_advances (c : Cursor) : Advances c (Rule.variableSpec.read c) :=
  (variableSpec_sound c).advances fun v _ hv hreads hgood =>
    advances_node (n := .spec v) hreads hgood (variableSpec_rest_lt hv)

/-- A name is the text that was read. -/
theorem variableName_advances (c : Cursor) : Advances c (Rule.variableName.read c) :=
  (variableName_sound c).advances fun n _ hn hreads _ =>
    .inr ⟨nofun, n, rfl, hreads.ne_nil (variableName_rest_lt hn), hreads⟩

/-- A modifier is read with its mark, or there is none. -/
theorem modifier_advances (c : Cursor) : Advances c (Rule.modifier.read c) := by
  refine (modifier?_sound c).advances fun m c' hm hreads hlimit => ?_
  -- neither mark follows, or one of them does
  cases m with
  | none => exact .inl ⟨rfl, hreads.eq_of_nil⟩
  | some m =>
    -- a length that the rule gives has been read from few enough digits
    have hread : m.toNode.IsReadable := by
      cases m with
      | limit length => exact hlimit length rfl
      | explode => trivial
    have hformat : m.toNode.format = m.format := by cases m <;> rfl
    have hne : m.format ≠ [] := by cases m <;> exact List.cons_ne_nil _ _
    refine .inr ⟨nofun, m.format, ?_, hne, hreads⟩
    rw [← hformat]
    exact Value.written_node hread

/-- A length is the number of the digits that were read. -/
theorem maxLength_advances (c : Cursor) : Advances c (Rule.maxLength.read c) := by
  rw [Rule.read]
  by_cases h : Grammar.IsLength (c.rest.takeWhile CodePoint.isDigit)
  · rw [maxLength_of_isLength c h]
    split
    · -- the digits are too many, which is no matter of syntax
      intro place hplace
      cases hplace
    · next hshort =>
      -- a length begins with no zero, so that writing it gives its digits back
      have hdigits := Grammar.ofNat_decimal _ h
      have hwritten := Value.written_int (n := Text.decimal (c.rest.takeWhile CodePoint.isDigit))
      rw [hdigits] at hwritten
      have hne : c.rest.takeWhile CodePoint.isDigit ≠ [] := by
        intro hnil
        rw [hnil] at h
        cases h
      refine .inr ⟨?_, _, hwritten (Nat.le_of_not_lt hshort), hne, .takeWhile _ c⟩
      intro hnull
      cases hnull
  · rw [maxLength_of_not_isLength c h]
    exact Fails.column_le (.unexpected .maxLength (.refl c))

/-- Every rule but that for templates reads what it returns. -/
theorem read_advances (rule : Rule) (hrule : rule ≠ .template) (c : Cursor) :
    Advances c (rule.read c) := by
  cases rule with
  | template => exact absurd rfl hrule
  | part => exact part_advances c
  | literal => exact literal_advances c
  | expression => exact expression_advances c
  | operator => exact operator_advances c
  | variableList => exact variableList_advances c
  | variableSpec => exact variableSpec_advances c
  | variableName => exact variableName_advances c
  | modifier => exact modifier_advances c
  | maxLength => exact maxLength_advances c

end Rules

end Cursor

namespace Value

variable {t : Text} {rule : Rule} {column : Nat}

/-- A rule is applied to a text by the parser, from the place at the column. -/
theorem readRule_text :
    readRule (.text t) rule column = match rule.read (.ofText t column) with
      | .ok (v, c) => .ok (v, c.column)
      | .error e => .error (.fault (.parse e)) := rfl

/-- What holds of the places in a text holds of its columns. -/
theorem advances_of_read (h : (Cursor.ofText t column).Advances (rule.read (.ofText t column))) :
    Advances t column (readRule (.text t) rule column) := by
  rw [readRule_text]
  cases hread : rule.read (.ofText t column) with
  | error e =>
    rw [hread] at h
    exact ⟨e, rfl, h⟩
  | ok r =>
    rw [hread] at h
    -- the rule has stayed, or it has read a run of characters, which is a slice of the text
    rcases h with ⟨hnull, hc⟩ | ⟨hne, run, hwritten, hrun, hreads⟩
    · exact .inl ⟨hnull, congrArg Cursor.column hc⟩
    · obtain ⟨hlt, hle, hslice⟩ := hreads.slice hrun
      exact .inr ⟨hne, hlt, hle, hwritten.trans (congrArg Except.ok hslice.symm)⟩

/-! ## The loop over the parts -/

/-- The rule for parts gives the part that the parser reads. -/
theorem readRule_part_eq_ok {p : Part} {c : Cursor}
    (hp : (Cursor.ofText t column).part = .ok (p, c)) :
    readRule (.text t) .part column = .ok (p.toValue, c.column) := by
  rw [readRule_text, Rule.read, hp]
  rfl

/-- It fails as the parser does. -/
theorem readRule_part_eq_error {e : ParseError} (he : (Cursor.ofText t column).part = .error e) :
    readRule (.text t) .part column = .error (.fault (.parse e)) := by
  rw [readRule_text, Rule.read, he]
  rfl

/-- A part ends behind the column where it begins. -/
theorem lt_of_part {p : Part} {c : Cursor} (hp : (Cursor.ofText t column).part = .ok (p, c)) :
    column < c.column ∧ c.column ≤ t.length := by
  -- what was read is not empty, since the parser is further on behind it
  have hreads := ((Cursor.part_sound _).ok hp).1
  obtain ⟨hlt, hle, -⟩ := hreads.slice (hreads.ne_nil (Cursor.part_rest_lt hp))
  exact ⟨hlt, hle⟩

/-- The parts that the parser reads are those that the loop collects. -/
theorem partLoop_parts (t : Text) (column : Nat) (ps : List Part) :
    PartLoop t column ps (match (Cursor.ofText t column).parts with
      | .ok (qs, c) => .ok (.node (.template ⟨ps ++ qs⟩), c.column)
      | .error e => .error (.fault (.parse e))) := by
  generalize hc : Cursor.ofText t column = c
  -- the induction follows the parser, whose place always is the one at the column of the loop
  fun_induction Cursor.parts c generalizing column ps with
  | case1 c hend =>
    -- at the end of the text
    subst hc
    simp only [List.append_nil]
    exact .done (List.drop_eq_nil_iff.mp hend)
  | case2 c hend e he =>
    -- no part can be read
    subst hc
    have hlt : column < t.length := Nat.lt_of_not_le (mt List.drop_eq_nil_of_le hend)
    exact .fail hlt (readRule_part_eq_error he)
  | case3 c hend p c₁ hp e he ih =>
    -- a part is read, and the loop fails behind it
    subst hc
    obtain ⟨hlt, hle⟩ := lt_of_part hp
    have hrest := ih c₁.column (ps ++ [p]) ((Cursor.part_sound _).ok hp).1.eq_ofText.symm
    rw [he] at hrest
    exact .step (Nat.lt_of_lt_of_le hlt hle) (readRule_part_eq_ok hp) hlt hle hrest
  | case4 c hend p c₁ hp qs c₂ hqs ih =>
    -- a part is read, and further ones behind it
    subst hc
    obtain ⟨hlt, hle⟩ := lt_of_part hp
    have hrest := ih c₁.column (ps ++ [p]) ((Cursor.part_sound _).ok hp).1.eq_ofText.symm
    simp only [hqs, List.append_assoc, List.singleton_append] at hrest
    exact .step (Nat.lt_of_lt_of_le hlt hle) (readRule_part_eq_ok hp) hlt hle hrest

/-- The rule for templates is the loop over the parts. -/
theorem partLoop_template (t : Text) (column : Nat) :
    PartLoop t column [] (readRule (.text t) .template column) := by
  have hloop := partLoop_parts t column []
  rw [readRule_text, Rule.read, Cursor.template]
  -- the rule gives the parts that the loop has collected
  cases hparts : (Cursor.ofText t column).parts with
  | error e =>
    rw [hparts] at hloop
    exact hloop
  | ok r =>
    rw [hparts] at hloop
    exact hloop

/-- Every rule consumes just what it returns, from any column of any text on: if it returns a value,
then it gets further in the text by what the value is written as, if it returns null, it stays, and
a syntax error lies at its column or behind it.  So the loop over the parts of a template gets
further with each of them and comes to its end. -/
theorem rules_advance (t : Text) (column : Nat) :
    (∀ rule ≠ .template, Advances t column (readRule (.text t) rule column)) ∧
      PartLoop t column [] (readRule (.text t) .template column) :=
  ⟨fun rule hrule => advances_of_read (Cursor.read_advances rule hrule _),
    partLoop_template t column⟩

/-- A list of variables in the middle of a text, and a column behind the end of the text. -/
theorem rules_advance_inside :
    (∃ vs, readRule (.text "/{a,b.c:30}".toText) .variableList 2 = .ok (.list vs, 10) ∧
      written (.list vs) = .ok "a,b.c:30".toText) ∧
    readRule (.text "/{a,b.c:30}".toText) .literal 12 = .ok (.null, 12) := by
  let a : VarSpec := ⟨⟨"a".toText, by decide⟩, none⟩
  let bc : VarSpec := ⟨⟨"b.c".toText, by decide⟩, some (.limit ⟨30, by decide⟩)⟩
  have hlist : (Cursor.ofText "/{a,b.c:30}".toText 2).variableList =
      .ok (⟨[a, bc], List.cons_ne_nil _ _⟩, ⟨10, "\x7d".toText⟩) := by
    decide +kernel
  have hread : readRule (.text "/{a,b.c:30}".toText) .variableList 2 =
      .ok (.list [.node (.spec a), .node (.spec bc)], 10) := by
    rw [readRule_text, Rule.read, hlist]
    rfl
  refine ⟨⟨_, hread, ?_⟩, rfl⟩
  -- what was read is not null, so that it is written as the text between the columns
  have hadvance := (rules_advance "/{a,b.c:30}".toText 2).1 .variableList nofun
  rw [hread] at hadvance
  rcases hadvance with ⟨hnull, -⟩ | ⟨-, -, -, hwritten⟩
  · cases hnull
  · exact hwritten

end Value

end UriTemplate
