import UriTemplate.Template.Cursor

/-! # Parsing templates

Each rule of the grammar is a function from a cursor to what it reads and the cursor
behind it.  A rule that may be absent answers `none` where it does not begin; a rule that
has begun, such as an expression after its opening brace, fails at the first column that
fits none of its continuations.  There is no backtracking.

Every rule that reads something leaves a shorter rest (`variableSpec_rest_lt`,
`part_rest_lt`), which is why the lists of variables and of parts end.  What the rules
read is valid by itself: a run of name segments is a variable name
(`isVarname_of_variableName`), and a length that begins with a digit other than zero is
positive (`decimal_pos`). -/

namespace UriTemplate

/-! ## Facts about runs of characters -/

/-- Leaving out a run makes no text longer. -/
theorem Text.length_dropWhile_le (p : CodePoint → Bool) (t : Text) :
    (t.dropWhile p).length ≤ t.length :=
  (List.dropWhile_sublist p).length_le

/-- The characters of a run are of its class. -/
theorem Text.mem_takeWhile {p : CodePoint → Bool} {t : Text} {c : CodePoint}
    (h : c ∈ t.takeWhile p) : p c = true := by
  induction t with
  | nil => simp at h
  | cons x t ih =>
    by_cases hx : p x
    · -- the run goes on with `x`
      rw [List.takeWhile_cons_of_pos hx] at h
      rcases List.mem_cons.mp h with rfl | h
      · exact hx
      · exact ih h
    · -- the run ends before `x`, so it has no character at all
      rw [List.takeWhile_cons_of_neg hx] at h
      simp at h

/-- A dot is no character of a name segment. -/
theorem dot_not_mem_segment {run : Text} (h : ∀ c ∈ run, c.isVarchar = true) :
    CodePoint.scalar '.' ∉ run := by
  intro hmem
  exact absurd (h _ hmem) (by decide)

/-- A single segment is a name. -/
theorem Text.isVarname_segment {run : Text} (hne : run ≠ [])
    (h : ∀ c ∈ run, c.isVarchar = true) : run.isVarname = true := by
  simp only [Text.isVarname, List.splitOn_eq_singleton (dot_not_mem_segment h)]
  simpa [hne] using h

/-- A segment in front of a name, with a dot between them, gives a name. -/
theorem Text.isVarname_segment_dot {run t : Text} (hne : run ≠ [])
    (h : ∀ c ∈ run, c.isVarchar = true) (ht : t.isVarname = true) :
    Text.isVarname (run ++ .scalar '.' :: t) = true := by
  simp only [Text.isVarname] at ht ⊢
  -- the first dot is the one behind the run, so splitting cuts off just the run
  rw [List.splitOn_append_cons_self_of_not_mem (dot_not_mem_segment h)]
  simp only [List.all_cons, Bool.and_eq_true]
  exact ⟨by simpa [hne] using h, ht⟩

/-- Reading on from a positive number gives a positive number. -/
theorem ofDigitChars_pos (digits : List Char) {start : Nat} (h : 0 < start) :
    0 < Nat.ofDigitChars 10 digits start := by
  induction digits generalizing start with
  | nil => simpa using h
  | cons d digits ih =>
    -- one more digit multiplies the number by ten
    rw [Nat.ofDigitChars_cons]
    exact ih (by omega)

/-- A number whose first digit is not zero is positive. -/
theorem Text.decimal_pos {c : Char} {digits : Text} (h : '0'.toNat < c.toNat) :
    0 < Text.decimal (.scalar c :: digits) := by
  -- after the first digit the number is positive, and the others keep it so
  change 0 < Nat.ofDigitChars 10 (c :: digits.filterMap CodePoint.char?) 0
  rw [Nat.ofDigitChars_cons]
  exact ofDigitChars_pos _ (by omega)

namespace Cursor

/-! ## Literals, names and modifiers -/

/-- Literal: the longest run of literal characters, if there is one. -/
def literal? (c : Cursor) : Option (Literal × Cursor) :=
  let run := c.rest.takeWhile CodePoint.isLiteral
  if h : run = [] then none
  else some (⟨run, h, fun _ hc => Text.mem_takeWhile hc⟩,
    ⟨c.column + run.length, c.rest.dropWhile CodePoint.isLiteral⟩)

/-- Segment of a name: a nonempty run of name characters. -/
def segment (c : Cursor) : Except ParseError (Text × Cursor) :=
  let run := c.rest.takeWhile CodePoint.isVarchar
  if run = [] then .error (c.unexpected .variableName)
  else .ok (run, ⟨c.column + run.length, c.rest.dropWhile CodePoint.isVarchar⟩)

/-- A segment that was read is the run of name characters, and it is not empty. -/
theorem segment_eq_ok {c c' : Cursor} {run : Text} (h : c.segment = .ok (run, c')) :
    run ≠ [] ∧ run = c.rest.takeWhile CodePoint.isVarchar ∧
      c' = ⟨c.column + run.length, c.rest.dropWhile CodePoint.isVarchar⟩ := by
  simp only [segment] at h
  split at h
  · cases h
  · next hne => cases h; exact ⟨hne, rfl, rfl⟩

/-- A segment leaves a shorter rest. -/
theorem segment_rest_lt {c c' : Cursor} {run : Text} (h : c.segment = .ok (run, c')) :
    c'.rest.length < c.rest.length := by
  obtain ⟨hne, hrun, rfl⟩ := segment_eq_ok h
  -- the run and what is left of it make up the rest
  have happ := congrArg List.length
    (List.takeWhile_append_dropWhile (p := CodePoint.isVarchar) (l := c.rest))
  rw [← hrun, List.length_append] at happ
  have := List.length_pos_iff.mpr hne
  simp only
  omega

/-- The further segments of a name, each after a dot. -/
def dottedSegments (c : Cursor) : Except ParseError (Text × Cursor) :=
  match _hdot : c.skip? '.' with
  | none => .ok ([], c)
  | some c₁ =>
    match _hrun : c₁.segment with
    | .error e => .error e
    | .ok (run, c₂) =>
      match dottedSegments c₂ with
      | .error e => .error e
      | .ok (more, c₃) => .ok (.scalar '.' :: run ++ more, c₃)
termination_by c.rest.length
decreasing_by
  have := rest_lt_of_skip? _hdot
  have := segment_rest_lt _hrun
  omega

/-- Name: segments with single dots between them. -/
def variableName (c : Cursor) : Except ParseError (Text × Cursor) := do
  let (run, c) ← c.segment
  let (more, c) ← c.dottedSegments
  return (run ++ more, c)

/-- Length of a prefix: decimal digits, the first of them not zero. -/
def maxLength (c : Cursor) : Except ParseError (MaxLength × Cursor) :=
  match c.rest with
  | .scalar d :: rest =>
    if h : '0'.toNat < d.toNat ∧ d.toNat ≤ '9'.toNat then
      let digits := rest.takeWhile CodePoint.isDigit
      -- the digits are read as a number before anything else is looked at
      if Text.digitLimit < digits.length + 1 then .error (.oversizedLength (digits.length + 1))
      else .ok (⟨Text.decimal (.scalar d :: digits), Text.decimal_pos h.1⟩,
        ⟨c.column + digits.length + 1, rest.dropWhile CodePoint.isDigit⟩)
    else .error (c.unexpected .maxLength)
  | _ => .error (c.unexpected .maxLength)

/-- Modifier: an asterisk, or a colon and a length. -/
def modifier? (c : Cursor) : Except ParseError (Option Modifier × Cursor) :=
  match c.skip? '*' with
  | some c => .ok (some .explode, c)
  | none => match c.skip? ':' with
    | some c => do
      let (length, c) ← c.maxLength
      return (some (.limit length), c)
    | none => .ok (none, c)

/-! ### What they read -/

/-- Further segments leave no longer rest. -/
theorem dottedSegments_rest_le {c c' : Cursor} {t : Text}
    (h : c.dottedSegments = .ok (t, c')) : c'.rest.length ≤ c.rest.length := by
  -- only the first and the last case succeed: no dot, or a dot, a run and more
  fun_induction dottedSegments c generalizing t c' with
  | case1 c hdot => cases h; exact Nat.le_refl _
  | case2 c c₁ hdot e hrun => cases h
  | case3 c c₁ hdot run c₂ hrun e he ih => cases h
  | case4 c c₁ hdot run c₂ hrun more c₃ hmore ih =>
    cases h
    have := rest_lt_of_skip? hdot
    have := segment_rest_lt hrun
    have := ih hmore
    omega

/-- Further segments complete a first one to a name. -/
theorem isVarname_append_dottedSegments {c c' : Cursor} {t run : Text}
    (h : c.dottedSegments = .ok (t, c')) (hne : run ≠ [])
    (hrun : ∀ x ∈ run, x.isVarchar = true) : Text.isVarname (run ++ t) = true := by
  fun_induction dottedSegments c generalizing t c' run with
  | case1 c hdot => cases h; simpa using Text.isVarname_segment hne hrun
  | case2 c c₁ hdot e he => cases h
  | case3 c c₁ hdot seg c₂ hseg e he ih => cases h
  | case4 c c₁ hdot seg c₂ hseg more c₃ hmore ih =>
    cases h
    -- by induction the segment behind the dot begins a name, which goes behind the run
    obtain ⟨hsegne, hsegeq, -⟩ := segment_eq_ok hseg
    refine Text.isVarname_segment_dot hne hrun (ih hmore hsegne fun x hx => ?_)
    rw [hsegeq] at hx
    exact Text.mem_takeWhile hx

/-- A name that was read is a segment and the further segments behind it. -/
theorem variableName_eq_ok {c c' : Cursor} {t : Text} (h : c.variableName = .ok (t, c')) :
    ∃ run more c₁, c.segment = .ok (run, c₁) ∧ c₁.dottedSegments = .ok (more, c') ∧
      t = run ++ more := by
  unfold variableName at h
  cases hseg : c.segment with
  | error e => simp [hseg, bind, Except.bind] at h
  | ok seg =>
    cases hmore : seg.2.dottedSegments with
    | error e => simp [hseg, hmore, bind, Except.bind] at h
    | ok more =>
      simp only [hseg, hmore, bind, Except.bind, pure, Except.pure, Except.ok.injEq,
        Prod.mk.injEq] at h
      exact ⟨seg.1, more.1, seg.2, rfl, by rw [hmore, ← h.2], h.1.symm⟩

/-- What the rule for names reads is a name. -/
theorem isVarname_of_variableName {c c' : Cursor} {t : Text}
    (h : c.variableName = .ok (t, c')) : t.isVarname = true := by
  obtain ⟨run, more, c₁, hseg, hmore, rfl⟩ := variableName_eq_ok h
  obtain ⟨hne, hrun, -⟩ := segment_eq_ok hseg
  refine isVarname_append_dottedSegments hmore hne fun x hx => ?_
  rw [hrun] at hx
  exact Text.mem_takeWhile hx

/-- A name leaves a shorter rest, because of its first segment. -/
theorem variableName_rest_lt {c c' : Cursor} {t : Text} (h : c.variableName = .ok (t, c')) :
    c'.rest.length < c.rest.length := by
  obtain ⟨run, more, c₁, hseg, hmore, -⟩ := variableName_eq_ok h
  have := segment_rest_lt hseg
  have := dottedSegments_rest_le hmore
  omega

/-- A length leaves a shorter rest, because of its first digit. -/
theorem maxLength_rest_lt {c c' : Cursor} {n : MaxLength} (h : c.maxLength = .ok (n, c')) :
    c'.rest.length < c.rest.length := by
  unfold maxLength at h
  split at h
  · next d rest hrest =>
    split at h
    · simp only at h
      split at h
      · cases h
      · cases h
        have := Text.length_dropWhile_le CodePoint.isDigit rest
        simp only [hrest, List.length_cons]
        omega
    · cases h
  · cases h

/-- A modifier may be absent, and so leaves no longer rest. -/
theorem modifier?_rest_le {c c' : Cursor} {m : Option Modifier}
    (h : c.modifier? = .ok (m, c')) : c'.rest.length ≤ c.rest.length := by
  unfold modifier? at h
  split at h
  · next hskip => cases h; exact Nat.le_of_lt (rest_lt_of_skip? hskip)
  · split at h
    · next c₁ hskip =>
      cases hlen : c₁.maxLength with
      | error e => simp [hlen, bind, Except.bind] at h
      | ok r =>
        simp only [hlen, bind, Except.bind, pure, Except.pure, Except.ok.injEq,
          Prod.mk.injEq] at h
        have := rest_lt_of_skip? hskip
        have := maxLength_rest_lt hlen
        rw [← h.2]
        omega
    · cases h; exact Nat.le_refl _

/-! ## Variables, expressions and templates -/

/-- Variable: a name and perhaps a modifier. -/
def variableSpec (c : Cursor) : Except ParseError (VarSpec × Cursor) :=
  match h : c.variableName with
  | .error e => .error e
  | .ok (name, c₁) => do
    let (modifier, c₂) ← c₁.modifier?
    return (⟨⟨name, isVarname_of_variableName h⟩, modifier⟩, c₂)

/-- A variable leaves a shorter rest, because of its name. -/
theorem variableSpec_rest_lt {c c' : Cursor} {v : VarSpec}
    (h : c.variableSpec = .ok (v, c')) : c'.rest.length < c.rest.length := by
  unfold variableSpec at h
  split at h
  · cases h
  · next name c₁ hname =>
    cases hmod : c₁.modifier? with
    | error e => simp [hmod, bind, Except.bind] at h
    | ok r =>
      simp only [hmod, bind, Except.bind, pure, Except.pure, Except.ok.injEq,
        Prod.mk.injEq] at h
      have := variableName_rest_lt hname
      have := modifier?_rest_le hmod
      rw [← h.2]
      omega

/-- The further variables of a list, each after a comma. -/
def moreVariables (c : Cursor) : Except ParseError (List VarSpec × Cursor) :=
  match _hcomma : c.skip? ',' with
  | none => .ok ([], c)
  | some c₁ =>
    match _hv : c₁.variableSpec with
    | .error e => .error e
    | .ok (v, c₂) =>
      match moreVariables c₂ with
      | .error e => .error e
      | .ok (vs, c₃) => .ok (v :: vs, c₃)
termination_by c.rest.length
decreasing_by
  have := rest_lt_of_skip? _hcomma
  have := variableSpec_rest_lt _hv
  omega

/-- Further variables leave no longer rest. -/
theorem moreVariables_rest_le {c c' : Cursor} {vs : List VarSpec}
    (h : c.moreVariables = .ok (vs, c')) : c'.rest.length ≤ c.rest.length := by
  -- as for segments, only the first and the last case succeed
  fun_induction moreVariables c generalizing vs c' with
  | case1 c hcomma => cases h; exact Nat.le_refl _
  | case2 c c₁ hcomma e hv => cases h
  | case3 c c₁ hcomma v c₂ hv e he ih => cases h
  | case4 c c₁ hcomma v c₂ hv vs c₃ hvs ih =>
    cases h
    have := rest_lt_of_skip? hcomma
    have := variableSpec_rest_lt hv
    have := ih hvs
    omega

/-- List of variables: at least one, with commas between them. -/
def variableList (c : Cursor) : Except ParseError ({ vs : List VarSpec // vs ≠ [] } × Cursor) := do
  let (v, c) ← c.variableSpec
  let (vs, c) ← c.moreVariables
  return (⟨v :: vs, List.cons_ne_nil v vs⟩, c)

/-- Operator: the symbol of a registered operator, if it comes next. -/
def operator? (c : Cursor) : Option Operator × Cursor :=
  match c.rest with
  | x :: rest => match Operator.ofSymbol? [x] with
    | some o => (some o, ⟨c.column + 1, rest⟩)
    | none => (none, c)
  | [] => (none, c)

/-- Expression: an operator and a list of variables, in braces.  An opening brace without
    any closing one behind it is an error of its own. -/
def expression? (c : Cursor) : Except ParseError (Option Expression × Cursor) :=
  match c.skip? '{' with
  | none => .ok (none, c)
  | some c₁ =>
    -- without a closing brace the expression is refused at its beginning
    if .scalar '}' ∈ c₁.rest then do
      let (operator, c₂) := c₁.operator?
      let (specs, c₃) ← c₂.variableList
      let c₄ ← c₃.skip '}'
      return (some ⟨specs.val, operator, specs.property⟩, c₄)
    else .error (.unclosed c.column)

/-- Part: an expression or a literal. -/
def part (c : Cursor) : Except ParseError (Part × Cursor) := do
  match ← c.expression? with
  | (some e, c) => return (.expression e, c)
  | (none, c) => match c.literal? with
    | some (l, c) => return (.literal l, c)
    | none => throw (c.unexpected .literalOrExpression)

/-- A list of variables leaves a shorter rest, because of the first one. -/
theorem variableList_rest_lt {c c' : Cursor} {vs : { vs : List VarSpec // vs ≠ [] }}
    (h : c.variableList = .ok (vs, c')) : c'.rest.length < c.rest.length := by
  unfold variableList at h
  cases hv : c.variableSpec with
  | error e => simp [hv, bind, Except.bind] at h
  | ok r =>
    cases hvs : r.2.moreVariables with
    | error e => simp [hv, hvs, bind, Except.bind] at h
    | ok rs =>
      simp only [hv, hvs, bind, Except.bind, pure, Except.pure, Except.ok.injEq,
        Prod.mk.injEq] at h
      have := variableSpec_rest_lt hv
      have := moreVariables_rest_le hvs
      rw [← h.2]
      omega

/-- An operator may be absent, and so leaves no longer rest. -/
theorem operator?_rest_le (c : Cursor) : c.operator?.2.rest.length ≤ c.rest.length := by
  unfold operator?
  split
  · next x rest hrest =>
    split
    · simp [hrest]
    · exact Nat.le_refl _
  · exact Nat.le_refl _

/-- The rule for expressions stays where it is, or reads one and leaves a shorter rest. -/
theorem expression?_rest {c c' : Cursor} {e : Option Expression}
    (h : c.expression? = .ok (e, c')) :
    (e = none ∧ c' = c) ∨ (e.isSome ∧ c'.rest.length < c.rest.length) := by
  unfold expression? at h
  split at h
  · cases h; exact .inl ⟨rfl, rfl⟩
  · next c₁ hopen =>
    split at h
    · cases hvs : c₁.operator?.2.variableList with
      | error e => simp [hvs, bind, Except.bind] at h
      | ok r =>
        cases hclose : r.2.skip '}' with
        | error e => simp [hvs, hclose, bind, Except.bind] at h
        | ok c₄ =>
          simp only [hvs, hclose, bind, Except.bind, pure, Except.pure, Except.ok.injEq,
            Prod.mk.injEq] at h
          -- the brace alone makes the rest shorter, and nothing behind it makes it longer
          have := rest_lt_of_skip? hopen
          have := operator?_rest_le c₁
          have := variableList_rest_lt hvs
          have := congrArg List.length (skip_rest hclose)
          simp only [List.length_cons] at this
          rw [← h.1, ← h.2]
          exact .inr ⟨rfl, by omega⟩
    · cases h

/-- A literal leaves a shorter rest, since it is not empty. -/
theorem literal?_rest_lt {c c' : Cursor} {l : Literal} (h : c.literal? = some (l, c')) :
    c'.rest.length < c.rest.length := by
  simp only [literal?] at h
  split at h
  · cases h
  · next hne =>
    simp only [Option.some.injEq, Prod.mk.injEq] at h
    -- as for segments, the run and what is left of it make up the rest
    have happ := congrArg List.length
      (List.takeWhile_append_dropWhile (p := CodePoint.isLiteral) (l := c.rest))
    rw [List.length_append] at happ
    have := List.length_pos_iff.mpr hne
    rw [← h.2]
    simp only
    omega

/-- A part leaves a shorter rest, be it an expression or a literal. -/
theorem part_rest_lt {c c' : Cursor} {p : Part} (h : c.part = .ok (p, c')) :
    c'.rest.length < c.rest.length := by
  unfold part at h
  cases he : c.expression? with
  | error e => simp [he, bind, Except.bind] at h
  | ok r =>
    obtain ⟨e?, c₁⟩ := r
    rcases expression?_rest he with ⟨rfl, rfl⟩ | ⟨hsome, hlt⟩
    · -- no expression begins here, so the part is a literal
      simp only [he, bind, Except.bind] at h
      split at h
      · next l c₂ hl =>
        simp only [pure, Except.pure, Except.ok.injEq, Prod.mk.injEq] at h
        rw [← h.2]
        exact literal?_rest_lt hl
      · cases h
    · -- the part is the expression
      obtain ⟨e, rfl⟩ := Option.isSome_iff_exists.mp hsome
      simp only [he, bind, Except.bind, pure, Except.pure, Except.ok.injEq, Prod.mk.injEq] at h
      rw [← h.2]
      exact hlt

/-- The parts up to the end of the text. -/
def parts (c : Cursor) : Except ParseError (List Part × Cursor) :=
  if c.rest = [] then .ok ([], c)
  else match _hp : c.part with
    | .error e => .error e
    | .ok (p, c₁) =>
      match parts c₁ with
      | .error e => .error e
      | .ok (ps, c₂) => .ok (p :: ps, c₂)
termination_by c.rest.length
decreasing_by exact part_rest_lt _hp

/-- Template: parts up to the end of the text. -/
def template (c : Cursor) : Except ParseError (Template × Cursor) := do
  let (parts, c) ← c.parts
  return (⟨parts⟩, c)

end Cursor

/-- Parses a text as a template. -/
def Template.parse (t : Text) : Except ParseError Template := do
  let (template, _) ← (Cursor.ofText t 0).template
  return template

end UriTemplate
