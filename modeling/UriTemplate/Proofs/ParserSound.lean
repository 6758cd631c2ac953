import UriTemplate.Proofs.Grammar
import UriTemplate.Proofs.Runs

/-!
# Soundness of the parser

What every rule of the grammar does from a place in a text, on success and on failure
(`Cursor.Sound`).  On success the text between the two places is the canonical text of what
was read.  On failure the error belongs to a place that the rule got to by reading
characters, and says what that place looks like.

Each rule has one lemma for both outcomes.  Rules are put together from other rules by
`Sound.bind`, and the three loops go by induction along their recursion.
-/

namespace UriTemplate

namespace Cursor

/-- Reading a run of characters leads from one place to another. -/
structure Reads (c : Cursor) (run : Text) (c' : Cursor) : Prop where
  rest : c.rest = run ++ c'.rest
  column : c'.column = c.column + run.length

namespace Reads

/-- Reading nothing stays where it is. -/
theorem refl (c : Cursor) : Reads c [] c := ⟨rfl, rfl⟩

/-- What is read next goes on behind what was read. -/
theorem trans {c₁ c₂ c₃ : Cursor} {s t : Text} (h : Reads c₁ s c₂) (h' : Reads c₂ t c₃) :
    Reads c₁ (s ++ t) c₃ := by
  constructor
  · rw [h.rest, h'.rest, List.append_assoc]
  · rw [h'.column, h.column, List.length_append, Nat.add_assoc]

/-- Reading nothing leads nowhere. -/
theorem eq_of_nil {c c' : Cursor} (h : Reads c [] c') : c' = c := by
  obtain ⟨column, rest⟩ := c
  obtain ⟨column', rest'⟩ := c'
  obtain ⟨hrest, hcolumn⟩ := h
  simp only [List.nil_append] at hrest
  simp only [List.length_nil, Nat.add_zero] at hcolumn
  rw [hrest, hcolumn]

/-- Skipping a character reads it. -/
theorem of_skip? {ch : Char} {c c' : Cursor} (h : c.skip? ch = some c') :
    Reads c [.scalar ch] c' := by
  constructor
  · exact skip?_rest h
  · unfold skip? at h
    split at h
    · split at h
      · cases h
        rfl
      · cases h
    · cases h

/-- The longest run of a class is read up to the place behind it. -/
theorem takeWhile (p : CodePoint → Bool) (c : Cursor) :
    Reads c (c.rest.takeWhile p)
      ⟨c.column + (c.rest.takeWhile p).length, c.rest.dropWhile p⟩ :=
  ⟨List.takeWhile_append_dropWhile.symm, rfl⟩

end Reads

/-- How a rule fails: at a place it got to, and for a reason that is seen there. -/
inductive Fails (c : Cursor) : ParseError → Prop
  /-- The character at the place, or the end of the text, does not fit. -/
  | unexpected {run : Text} {c' : Cursor} (expected : Expected) (h : Reads c run c') :
      Fails c (c'.unexpected expected)
  /-- A brace opens at the place, and there is no closing one behind it. -/
  | unclosed {run : Text} {c' c'' : Cursor} (h : Reads c run c') (hopen : c'.skip? '{' = some c'')
      (hclose : .scalar '}' ∉ c''.rest) : Fails c (.unclosed c'.column)
  /-- The place is behind a colon, and more digits begin there than can be read. -/
  | oversizedLength {run : Text} {c' : Cursor} (h : Reads c (run ++ [.scalar ':']) c')
      (hlong : Text.digitLimit < (c'.rest.takeWhile CodePoint.isDigit).length) :
      Fails c (.oversizedLength (c'.rest.takeWhile CodePoint.isDigit).length)

/-- What fails behind a run of characters fails from the place before them. -/
theorem Fails.of_reads {c c' : Cursor} {run : Text} {e : ParseError} (h : Reads c run c')
    (he : Fails c' e) : Fails c e := by
  cases he with
  | unexpected expected h' => exact .unexpected expected (h.trans h')
  | unclosed h' hopen hclose => exact .unclosed (h.trans h') hopen hclose
  | oversizedLength h' hlong =>
    -- the colon is the last character that was read
    have hreads := h.trans h'
    rw [← List.append_assoc] at hreads
    exact .oversizedLength hreads hlong

/-- A character that has to come next is read. -/
theorem Reads.of_skip {ch : Char} {c c' : Cursor} (h : c.skip ch = .ok c') :
    Reads c [.scalar ch] c' := by
  unfold skip at h
  split at h
  · next hskip =>
    cases h
    exact .of_skip? hskip
  · cases h

/-- Another character in its place is an error there. -/
theorem fails_of_skip {ch : Char} {c : Cursor} {e : ParseError} (h : c.skip ch = .error e) :
    Fails c e := by
  unfold skip at h
  split at h
  · cases h
  · cases h
    exact .unexpected _ (.refl c)

/-- The outcome of a rule: a value of the given kind whose canonical text was read, or a
failure. -/
def Sound {α : Type} (c : Cursor) (format : α → Text) (good : α → Prop) :
    Except ParseError (α × Cursor) → Prop
  | .ok (a, c') => Reads c (format a) c' ∧ good a
  | .error e => Fails c e

namespace Sound

variable {α β : Type} {c : Cursor} {format : α → Text} {good : α → Prop}
  {r : Except ParseError (α × Cursor)}

/-- A rule that returns a value has read its text. -/
theorem ok {a : α} {c' : Cursor} (h : Sound c format good r) (hr : r = .ok (a, c')) :
    Reads c (format a) c' ∧ good a := by
  rw [hr] at h
  exact h

/-- A rule that fails does so at a place that it got to. -/
theorem error {e : ParseError} (h : Sound c format good r) (hr : r = .error e) : Fails c e := by
  rw [hr] at h
  exact h

/-- A rule that goes on from what another rule has read. -/
theorem bind {format' : β → Text} {good' : β → Prop}
    {f : α × Cursor → Except ParseError (β × Cursor)} (h : Sound c format good r)
    (hf : ∀ a c', r = .ok (a, c') → Reads c (format a) c' → good a →
      Sound c format' good' (f (a, c'))) :
    Sound c format' good' (r >>= f) := by
  cases r with
  | error e => exact h
  | ok p => exact hf p.1 p.2 rfl h.1 h.2

/-- A rule that begins behind a run of characters. -/
theorem after {c' : Cursor} {run : Text} (h : Reads c run c') (hr : Sound c' format good r) :
    Sound c (fun a => run ++ format a) good r := by
  cases r with
  | error e => exact .of_reads h hr
  -- what the rule reads goes behind the run, and so do its failures
  | ok p => exact ⟨h.trans hr.1, hr.2⟩

end Sound

/-! ## Names, lengths and modifiers -/

/-- A segment is the run that was read. -/
theorem segment_sound (c : Cursor) : Sound c id (fun _ => True) c.segment := by
  unfold segment
  dsimp only
  split
  · exact .unexpected .variableName (.refl c)
  · exact ⟨.takeWhile _ c, trivial⟩

/-- Further segments are read with their dots. -/
theorem dottedSegments_sound (c : Cursor) :
    Sound c id (fun _ => True) c.dottedSegments := by
  fun_induction dottedSegments c with
  | case1 c hdot => exact ⟨.refl c, trivial⟩
  | case2 c c₁ hdot e hrun =>
    -- the dot has no segment behind it
    exact Fails.of_reads (.of_skip? hdot) ((segment_sound c₁).error hrun)
  | case3 c c₁ hdot run c₂ hrun e he ih =>
    -- a later dot has none
    obtain ⟨hseg, -⟩ := (segment_sound c₁).ok hrun
    exact Fails.of_reads ((Reads.of_skip? hdot).trans hseg) (ih.error he)
  | case4 c c₁ hdot run c₂ hrun more c₃ hmore ih =>
    obtain ⟨hseg, -⟩ := (segment_sound c₁).ok hrun
    obtain ⟨hrest, -⟩ := ih.ok hmore
    exact ⟨(Reads.of_skip? hdot).trans (hseg.trans hrest), trivial⟩

/-- A name is the text that was read. -/
theorem variableName_sound (c : Cursor) : Sound c id (fun _ => True) c.variableName := by
  unfold variableName
  refine (segment_sound c).bind fun run c₁ _ hrun _ => ?_
  refine ((dottedSegments_sound c₁).after hrun).bind fun more c₂ _ hmore _ => ?_
  exact ⟨hmore, trivial⟩

/-- Where a length begins, its digits are read as a number unless they are too many. -/
theorem maxLength_of_isLength (c : Cursor)
    (h : Grammar.IsLength (c.rest.takeWhile CodePoint.isDigit)) :
    c.maxLength =
      if Text.digitLimit < (c.rest.takeWhile CodePoint.isDigit).length then
        .error (.oversizedLength (c.rest.takeWhile CodePoint.isDigit).length)
      else .ok (⟨Text.decimal (c.rest.takeWhile CodePoint.isDigit),
          Grammar.decimal_pos_of_isLength _ h⟩,
        ⟨c.column + (c.rest.takeWhile CodePoint.isDigit).length,
          c.rest.dropWhile CodePoint.isDigit⟩) := by
  obtain ⟨column, rest⟩ := c
  cases rest with
  | nil => cases h
  | cons x rest =>
    -- only a digit begins a length
    by_cases hx : x.isDigit = true
    · obtain ⟨d, rfl, h0, h9⟩ := Grammar.exists_char_of_isDigit x hx
      simp only [List.takeWhile_cons_of_pos hx, List.dropWhile_cons_of_pos hx,
        List.length_cons] at h ⊢
      cases h with
      | digits _ _ _ hd0 _ =>
        have hd : '0'.toNat < d.toNat ∧ d.toNat ≤ '9'.toNat :=
          ⟨Grammar.zero_lt_of_ne d h0 hd0, h9⟩
        simp only [maxLength, dif_pos hd]
        rfl
    · simp only [List.takeWhile_cons_of_neg hx] at h
      cases h

/-- Where no length begins, none is read. -/
theorem maxLength_of_not_isLength (c : Cursor)
    (h : ¬ Grammar.IsLength (c.rest.takeWhile CodePoint.isDigit)) :
    c.maxLength = .error (c.unexpected .maxLength) := by
  -- the rule looks at the first character alone
  unfold maxLength
  split
  · next d rest hrest =>
    split
    · next hd =>
      -- a digit other than zero would have begun a length
      have hdigit := Grammar.isDigit_scalar d (Nat.le_of_lt hd.1) hd.2
      have hd0 : CodePoint.scalar d ≠ .scalar '0' := by
        rintro hd0
        cases hd0
        exact absurd hd.1 (Nat.lt_irrefl _)
      refine absurd ?_ h
      rw [hrest, List.takeWhile_cons_of_pos hdigit]
      exact .digits _ _ hdigit hd0 fun x hx => Text.mem_takeWhile hx
    · rfl
  · rfl

/-- A modifier is the text that was read, and a length in it is not too long. -/
theorem modifier?_sound (c : Cursor) :
    Sound c (fun m => (m.map Modifier.format).getD [])
      (fun m => ∀ n, m = some (.limit n) → (Text.ofNat n.value).length ≤ Text.digitLimit)
      c.modifier? := by
  unfold modifier?
  split
  · next c₁ hstar => exact ⟨.of_skip? hstar, fun n hn => by cases hn⟩
  · split
    · next c₁ hcolon =>
      have hreads := Reads.of_skip? hcolon
      by_cases h : Grammar.IsLength (c₁.rest.takeWhile CodePoint.isDigit)
      · -- a length begins behind the colon
        rw [maxLength_of_isLength c₁ h]
        split
        · next hlong => exact @Fails.oversizedLength c [] c₁ hreads hlong
        · next hlong =>
          refine ⟨?_, fun n hn => ?_⟩
          · show Reads c (.scalar ':' :: Text.ofNat (Text.decimal _)) _
            rw [Grammar.ofNat_decimal _ h]
            exact hreads.trans (.takeWhile CodePoint.isDigit c₁)
          · cases hn
            rw [Grammar.ofNat_decimal _ h]
            exact Nat.le_of_not_lt hlong
      · rw [maxLength_of_not_isLength c₁ h]
        exact Fails.unexpected .maxLength hreads
    · exact ⟨.refl c, fun n hn => by cases hn⟩

/-! ## Variables and expressions -/

/-- A variable is the text that was read. -/
theorem variableSpec_sound (c : Cursor) :
    Sound c VarSpec.format VarSpec.IsReadable c.variableSpec := by
  unfold variableSpec
  -- without a name there is no variable
  split
  · next e he => exact (variableName_sound c).error he
  · next name c₁ hok =>
    obtain ⟨hname, -⟩ := (variableName_sound c).ok hok
    refine ((modifier?_sound c₁).after hname).bind fun m c₂ _ hm hlimit => ⟨hm, ?_⟩
    -- the only length of a variable is that of its modifier
    intro n hn
    cases m with
    | none => cases hn
    | some m =>
      cases m with
      | limit length =>
        cases hn
        exact hlimit length rfl
      | explode => cases hn

/-- Further variables are read with their commas. -/
theorem moreVariables_sound (c : Cursor) :
    Sound c (fun vs => vs.flatMap fun v => .scalar ',' :: v.format)
      (fun vs => ∀ v ∈ vs, v.IsReadable) c.moreVariables := by
  fun_induction moreVariables c with
  | case1 c hcomma => exact ⟨.refl c, fun v hv => by cases hv⟩
  | case2 c c₁ hcomma e hv =>
    -- the comma has no variable behind it
    exact Fails.of_reads (.of_skip? hcomma) ((variableSpec_sound c₁).error hv)
  | case3 c c₁ hcomma v c₂ hv e hvs ih =>
    -- a later comma has none
    obtain ⟨hspec, -⟩ := (variableSpec_sound c₁).ok hv
    exact Fails.of_reads ((Reads.of_skip? hcomma).trans hspec) (ih.error hvs)
  | case4 c c₁ hcomma v c₂ hv vs c₃ hvs ih =>
    obtain ⟨hspec, hgood⟩ := (variableSpec_sound c₁).ok hv
    obtain ⟨hrest, hmore⟩ := ih.ok hvs
    refine ⟨?_, List.forall_mem_cons.mpr ⟨hgood, hmore⟩⟩
    have hreads := ((Reads.of_skip? hcomma).trans hspec).trans hrest
    simpa using hreads

/-- A list of variables is the text that was read. -/
theorem variableList_sound (c : Cursor) :
    Sound c (fun vs => ",".toText.intercalate (vs.val.map VarSpec.format))
      (fun vs => ∀ v ∈ vs.val, v.IsReadable) c.variableList := by
  unfold variableList
  refine (variableSpec_sound c).bind fun v c₁ _ hv hgood => ?_
  refine ((moreVariables_sound c₁).after hv).bind fun vs c₂ _ hvs hmore => ?_
  refine ⟨?_, List.forall_mem_cons.mpr ⟨hgood, hmore⟩⟩
  simp only [List.map_cons, Grammar.intercalate_comma, List.flatMap_map]
  exact hvs

/-- An operator is a registered one, and its symbol was read. -/
theorem operator?_sound (c : Cursor) :
    Reads c ((c.operator?.1.map Operator.symbol).getD []) c.operator?.2 ∧
      ∀ o ∈ c.operator?.1, o ∈ Operator.registered := by
  unfold operator?
  split
  · next x rest hrest =>
    split
    · -- the character was found among the symbols
      next o ho =>
      refine ⟨?_, fun o' ho' => ?_⟩
      · simp only [Option.map_some, Option.getD_some, Operator.symbol_of_ofSymbol? ho]
        exact ⟨hrest, rfl⟩
      · cases ho'
        exact List.mem_of_find?_eq_some ho
    · exact ⟨.refl c, fun o ho => by cases ho⟩
  · exact ⟨.refl c, fun o ho => by cases ho⟩

/-- The expression behind an opening brace that is closed somewhere. -/
theorem expression?_of_skip? (c c₁ : Cursor) (hopen : c.skip? '{' = some c₁)
    (hclose : .scalar '}' ∈ c₁.rest) :
    c.expression? = (do
      let (vs, c₂) ← c₁.operator?.2.variableList
      let c₃ ← c₂.skip '}'
      return (some ⟨vs.val, c₁.operator?.1, vs.property⟩, c₃)) := by
  unfold expression?
  rw [hopen]
  exact if_pos hclose

/-- An expression is the text that was read. -/
theorem expression?_sound (c : Cursor) :
    Sound c (fun e => (e.map Expression.format).getD [])
      (fun e => ∀ e' ∈ e, e'.IsRegistered ∧ ∀ v ∈ e'.specs, v.IsReadable) c.expression? := by
  cases hopen : c.skip? '{' with
  | none =>
    unfold expression?
    rw [hopen]
    exact ⟨.refl c, fun e he => by cases he⟩
  | some c₁ =>
    -- without a closing brace the rule fails at the opening one
    by_cases hclose : .scalar '}' ∈ c₁.rest
    · rw [expression?_of_skip? c c₁ hopen hclose]
      obtain ⟨hsymbol, hreg⟩ := operator?_sound c₁
      have hstart := (Reads.of_skip? hopen).trans hsymbol
      refine ((variableList_sound c₁.operator?.2).after hstart).bind fun vs c₂ _ hvs hgood => ?_
      dsimp only
      cases hskip : c₂.skip '}' with
      | error e => exact Fails.of_reads hvs (fails_of_skip hskip)
      | ok c₃ =>
        -- the braces and the operator stand around the variables in the canonical text, too
        refine ⟨?_, fun e he => ?_⟩
        · have htext := hvs.trans (.of_skip hskip)
          simpa [Expression.format, VarSpec.formatAll] using htext
        · cases he
          exact ⟨hreg, hgood⟩
    · unfold expression?
      rw [hopen]
      simp only [if_neg hclose]
      exact .unclosed (.refl c) hopen hclose

/-! ## Parts and templates -/

/-- A literal is the text that was read. -/
theorem literal?_reads {c c' : Cursor} {l : Literal} (h : c.literal? = some (l, c')) :
    Reads c l.text c' := by
  simp only [literal?] at h
  split at h
  · cases h
  · cases h
    exact .takeWhile CodePoint.isLiteral c

/-- A part is the text that was read. -/
theorem part_sound (c : Cursor) : Sound c Part.format Part.IsReadable c.part := by
  unfold part
  refine (expression?_sound c).bind fun e c₁ _ he hgood => ?_
  -- an expression, or else a literal at the same place
  cases e with
  | some e => exact ⟨he, hgood e rfl⟩
  | none =>
    split
    · -- this is the case of an expression, which there is none of
      next e c₂ hexpr => cases hexpr
    · next c₂ hexpr =>
      cases hexpr
      split
      · next l c₃ hl => exact ⟨he.trans (literal?_reads hl), trivial⟩
      · exact Fails.unexpected .literalOrExpression he

/-- Parts are read one after the other up to the end of the text. -/
theorem parts_sound (c : Cursor) :
    Sound c (fun ps => ps.flatMap Part.format) (fun ps => ∀ p ∈ ps, p.IsReadable) c.parts := by
  -- the induction follows the loop, and a failure is that of the part where it occurs
  fun_induction parts c with
  | case1 c hend => exact ⟨.refl c, fun p hp => by cases hp⟩
  | case2 c hend e he => exact (part_sound c).error he
  | case3 c hend p c₁ hp e he ih =>
    obtain ⟨hpart, -⟩ := (part_sound c).ok hp
    exact Fails.of_reads hpart (ih.error he)
  | case4 c hend p c₁ hp ps c₂ hps ih =>
    obtain ⟨hpart, hgood⟩ := (part_sound c).ok hp
    obtain ⟨hrest, hmore⟩ := ih.ok hps
    exact ⟨hpart.trans hrest, List.forall_mem_cons.mpr ⟨hgood, hmore⟩⟩

/-- The parts end where the text ends. -/
theorem parts_rest {c c' : Cursor} {ps : List Part} (h : c.parts = .ok (ps, c')) :
    c'.rest = [] := by
  fun_induction parts c generalizing ps c' with
  | case1 c hend =>
    cases h
    exact hend
  | case2 c hend e he => cases h
  | case3 c hend p c₁ hp e he ih => cases h
  | case4 c hend p c₁ hp ps c₂ hps ih =>
    -- the rest of the text is the rest behind the other parts
    cases h
    exact ih hps

end Cursor

/-- A template that was parsed is written as the text, its operators are registered, and its
prefix lengths can be read. -/
theorem Template.parse_eq_ok {t : Text} {T : Template} (h : Template.parse t = .ok T) :
    T.format = t ∧ T.IsRegistered ∧ T.IsReadable := by
  unfold Template.parse Cursor.template at h
  obtain ⟨r, hrun, hT⟩ := bind_eq_ok.mp h
  obtain ⟨⟨ps, c⟩, hparts, hr⟩ := bind_eq_ok.mp hrun
  rw [pure_eq_ok] at hT hr
  subst hr hT
  obtain ⟨hreads, hgood⟩ := (Cursor.parts_sound (.ofText t 0)).ok hparts
  -- nothing is left of the text behind its parts
  have hrest := hreads.rest
  rw [Cursor.parts_rest hparts, List.append_nil] at hrest
  exact ⟨hrest.symm, (Template.forall_parts_isReadable ps).mp hgood⟩

/-- A text that cannot be parsed fails at a place in it. -/
theorem Template.parse_eq_error {t : Text} {e : ParseError} (h : Template.parse t = .error e) :
    Cursor.Fails (.ofText t 0) e := by
  unfold Template.parse Cursor.template at h
  -- only the parts can fail
  cases hparts : (Cursor.ofText t 0).parts with
  | error e' =>
    simp only [hparts, bind, Except.bind, Except.error.injEq] at h
    subst h
    exact (Cursor.parts_sound (.ofText t 0)).error hparts
  | ok p =>
    simp only [hparts, bind, Except.bind, pure, Except.pure] at h
    cases h

end UriTemplate
