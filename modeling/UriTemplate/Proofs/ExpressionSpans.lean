import UriTemplate.Proofs.ErrorPlaces
import UriTemplate.Value.Rule

/-!
# The text of an expression

An expression is read from its own text only, which ends at the first closing brace behind the
opening one.  What stands in front of it moves the columns, and what stands behind it is never
looked at.

A place in a text is also a place in every longer text (`Cursor.within`).  No rule within an
expression reads a closing brace, so that it does the same at both places as long as there is one
(`Cursor.Carries`).  Where an expression ends, and where its errors are, then has to be shown for
its own text alone.
-/

namespace UriTemplate

/-! ## Runs in front of a character that ends them -/

namespace Text

variable {p : CodePoint → Bool} {x : CodePoint} {s : Text}

/-- A character that ends a run is still there behind it. -/
theorem mem_dropWhile (hx : p x = false) (hmem : x ∈ s) : x ∈ s.dropWhile p := by
  rw [← List.takeWhile_append_dropWhile (p := p) (l := s), List.mem_append] at hmem
  refine hmem.resolve_left fun hrun => ?_
  rw [mem_takeWhile hrun] at hx
  cases hx

/-- What stands behind the character does not matter for the run. -/
theorem run_append (hx : p x = false) (hmem : x ∈ s) (t : Text) :
    (s ++ t).takeWhile p = s.takeWhile p ∧ (s ++ t).dropWhile p = s.dropWhile p ++ t := by
  induction s with
  | nil => cases hmem
  | cons y s ih =>
    rw [List.cons_append]
    -- characters of the run are kept on both sides, and the first other one ends both runs
    by_cases hy : p y = true
    · have hne : x ≠ y := by
        rintro rfl
        rw [hx] at hy
        cases hy
      obtain ⟨htake, hdrop⟩ := ih (List.mem_of_ne_of_mem hne hmem)
      simp only [List.takeWhile_cons_of_pos hy, List.dropWhile_cons_of_pos hy]
      exact ⟨congrArg _ htake, hdrop⟩
    · simp only [List.takeWhile_cons_of_neg hy, List.dropWhile_cons_of_neg hy, List.cons_append]
      exact ⟨trivial, trivial⟩

end Text

/-! ## Places in a longer text -/

/-- The error with its column further behind. -/
def ParseError.shift (n : Nat) : ParseError → ParseError
  | unexpected column found expected => .unexpected (n + column) found expected
  | unclosed column => .unclosed (n + column)
  | oversizedLength digits => .oversizedLength digits

/-- Moving an error moves its column, if it has one. -/
theorem ParseError.column?_shift (n : Nat) (e : ParseError) :
    (e.shift n).column? = e.column?.map (n + ·) := by
  cases e <;> rfl

namespace Cursor

/-- The place in a longer text: `n` characters stand in front of the text, and another text stands
behind it. -/
def within (n : Nat) (behind : Text) (c : Cursor) : Cursor := ⟨n + c.column, c.rest ++ behind⟩

/-- The outcome of a rule as it is in a longer text. -/
def carry {α : Type} (n : Nat) (behind : Text) :
    Except ParseError (α × Cursor) → Except ParseError (α × Cursor)
  | .ok (a, c) => .ok (a, c.within n behind)
  | .error e => .error (e.shift n)

/-- The outcome of a rule carries over to a longer text: it is the same but for the places.  Behind
what was read there still is a closing brace. -/
def Carries {α : Type} (n : Nat) (behind : Text) :
    Except ParseError (α × Cursor) → Except ParseError (α × Cursor) → Prop
  | .ok (a, c), r => .scalar '}' ∈ c.rest ∧ r = .ok (a, c.within n behind)
  | .error e, r => r = .error (e.shift n)

section Rules

variable {α β : Type} {n : Nat} {behind : Text} {c c' : Cursor}

/-- A rule that goes on from where another one has got to carries over with it. -/
theorem Carries.bind {r r' : Except ParseError (α × Cursor)}
    {f : α × Cursor → Except ParseError (β × Cursor)} (h : Carries n behind r r')
    (hf : ∀ a c, r = .ok (a, c) → .scalar '}' ∈ c.rest →
      Carries n behind (f (a, c)) (f (a, c.within n behind))) :
    Carries n behind (r >>= f) (r' >>= f) := by
  -- an error is moved as it is, and a result hands over where it has got to
  cases r with
  | error e =>
    cases h
    exact rfl
  | ok p =>
    obtain ⟨hmem, rfl⟩ := h
    exact hf p.1 p.2 rfl hmem

/-- The last rule may read the closing brace. -/
theorem Carries.bind_eq {r r' : Except ParseError (α × Cursor)}
    {f : α × Cursor → Except ParseError (β × Cursor)} (h : Carries n behind r r')
    (hf : ∀ a c, .scalar '}' ∈ c.rest → f (a, c.within n behind) = carry n behind (f (a, c))) :
    (r' >>= f) = carry n behind (r >>= f) := by
  cases r with
  | error e =>
    cases h
    rfl
  | ok p =>
    obtain ⟨hmem, rfl⟩ := h
    exact hf p.1 p.2 hmem

/-- An error at the place moves with it, since a character is left there to blame. -/
theorem unexpected_within (hmem : .scalar '}' ∈ c.rest) (expected : Expected) :
    (c.within n behind).unexpected expected = (c.unexpected expected).shift n := by
  obtain ⟨x, rest, hrest⟩ := List.exists_cons_of_ne_nil (List.ne_nil_of_mem hmem)
  simp only [unexpected, within, ParseError.shift, hrest, List.cons_append, List.head?_cons]

/-- So a rule that stops here stops in the longer text as well. -/
theorem carries_unexpected (hmem : .scalar '}' ∈ c.rest) (expected : Expected) :
    Carries (α := α) n behind (.error (c.unexpected expected))
      (.error ((c.within n behind).unexpected expected)) := by
  rw [unexpected_within hmem]
  exact rfl

/-- The same character is skipped at both places. -/
theorem skip?_within (hmem : .scalar '}' ∈ c.rest) (ch : Char) :
    (c.within n behind).skip? ch = (c.skip? ch).map (within n behind) := by
  obtain ⟨x, rest, hrest⟩ := List.exists_cons_of_ne_nil (List.ne_nil_of_mem hmem)
  simp only [skip?, within, hrest, List.cons_append]
  split
  · rfl
  · rfl

/-- A closing brace is still to come behind any other character. -/
theorem brace_mem_of_skip? {ch : Char} (h : c.skip? ch = some c') (hch : ch ≠ '}')
    (hmem : .scalar '}' ∈ c.rest) : .scalar '}' ∈ c'.rest := by
  rw [skip?_rest h] at hmem
  refine List.mem_of_ne_of_mem (fun heq => hch ?_) hmem
  cases heq
  rfl

/-! ## Names, lengths and modifiers -/

/-- A segment ends in its own text, and so it is the same in a longer one. -/
theorem segment_carries (hmem : .scalar '}' ∈ c.rest) :
    Carries n behind c.segment (c.within n behind).segment := by
  have hbrace : CodePoint.isVarchar (.scalar '}') = false := by decide
  -- the run ends at the closing brace at the latest, so that the longer text has the same one
  obtain ⟨htake, hdrop⟩ := Text.run_append hbrace hmem behind
  unfold segment
  simp only [within, htake, hdrop]
  split
  · exact carries_unexpected hmem _
  · refine ⟨Text.mem_dropWhile hbrace hmem, ?_⟩
    simp only [within, Nat.add_assoc]

/-- The segments behind dots carry over one after the other. -/
theorem dottedSegments_carries (c : Cursor) (hmem : .scalar '}' ∈ c.rest) :
    Carries n behind c.dottedSegments (c.within n behind).dottedSegments := by
  rw [dottedSegments_eq c, dottedSegments_eq (c.within n behind), skip?_within hmem]
  cases hdot : c.skip? '.' with
  | none => exact ⟨hmem, rfl⟩
  | some c₁ =>
    have hmem₁ := brace_mem_of_skip? hdot (by decide) hmem
    -- the recursion goes on from behind the segment, where the closing brace still is
    refine (segment_carries hmem₁).bind fun run c₂ hrun hmem₂ => ?_
    exact (dottedSegments_carries _ hmem₂).bind fun more c₃ _ hmem₃ => ⟨hmem₃, rfl⟩
termination_by c.rest.length
decreasing_by
  have := rest_lt_of_skip? hdot
  have := segment_rest_lt hrun
  omega

/-- So does a whole name. -/
theorem variableName_carries (hmem : .scalar '}' ∈ c.rest) :
    Carries n behind c.variableName (c.within n behind).variableName := by
  refine (segment_carries hmem).bind fun run c₁ _ hmem₁ => ?_
  exact (dottedSegments_carries _ hmem₁).bind fun more c₂ _ hmem₂ => ⟨hmem₂, rfl⟩

/-- A prefix length has the same digits in both places. -/
theorem maxLength_carries (hmem : .scalar '}' ∈ c.rest) :
    Carries n behind c.maxLength (c.within n behind).maxLength := by
  have hbrace : CodePoint.isDigit (.scalar '}') = false := by decide
  obtain ⟨htake, hdrop⟩ := Text.run_append hbrace hmem behind
  have htake' : (c.within n behind).rest.takeWhile CodePoint.isDigit =
      c.rest.takeWhile CodePoint.isDigit := htake
  -- a length begins here or not, which the run of digits alone decides
  by_cases h : Grammar.IsLength (c.rest.takeWhile CodePoint.isDigit)
  · rw [maxLength_of_isLength c h, maxLength_of_isLength (c.within n behind) (htake' ▸ h)]
    simp only [within, htake, hdrop]
    split
    · exact rfl
    · refine ⟨Text.mem_dropWhile hbrace hmem, ?_⟩
      simp only [within, Nat.add_assoc]
  · rw [maxLength_of_not_isLength c h, maxLength_of_not_isLength (c.within n behind) (htake' ▸ h)]
    exact carries_unexpected hmem _

/-- So does a modifier, which is decided by the next character. -/
theorem modifier?_carries (hmem : .scalar '}' ∈ c.rest) :
    Carries n behind c.modifier? (c.within n behind).modifier? := by
  unfold modifier?
  rw [skip?_within hmem, skip?_within hmem]
  -- which modifier it is shows in the first character, which both places have
  cases hstar : c.skip? '*' with
  | some c₁ => exact ⟨brace_mem_of_skip? hstar (by decide) hmem, rfl⟩
  | none =>
    cases hcolon : c.skip? ':' with
    | none => exact ⟨hmem, rfl⟩
    | some c₁ =>
      have hmem₁ := brace_mem_of_skip? hcolon (by decide) hmem
      exact (maxLength_carries hmem₁).bind fun length c₂ _ hmem₂ => ⟨hmem₂, rfl⟩

/-! ## Variables and expressions -/

/-- Where no name can be read, no variable can. -/
theorem variableSpec_of_error {e : ParseError} (h : c.variableName = .error e) :
    c.variableSpec = .error e := by
  unfold variableSpec
  split
  · next e' he =>
    rw [h] at he
    cases he
    rfl
  · next name c₁ hok =>
    rw [h] at hok
    cases hok

/-- A variable carries over with its name and its modifier. -/
theorem variableSpec_carries (hmem : .scalar '}' ∈ c.rest) :
    Carries n behind c.variableSpec (c.within n behind).variableSpec := by
  have hcarries : Carries n behind c.variableName (c.within n behind).variableName :=
    variableName_carries hmem
  cases hrun : c.variableName with
  | error e =>
    rw [hrun] at hcarries
    rw [variableSpec_of_error hrun, variableSpec_of_error hcarries]
    exact rfl
  | ok p =>
    obtain ⟨t, c₁⟩ := p
    rw [hrun] at hcarries
    -- the rule wraps the text that it has read, in both places the same one
    obtain ⟨name, rfl⟩ : ∃ name : VarName, name.text = t :=
      ⟨⟨t, isVarname_of_variableName hrun⟩, rfl⟩
    rw [variableSpec_of_variableName hrun, variableSpec_of_variableName hcarries.2]
    exact (modifier?_carries hcarries.1).bind fun m c₂ _ hmem₂ => ⟨hmem₂, rfl⟩

/-- The variables behind commas carry over one after the other. -/
theorem moreVariables_carries (c : Cursor) (hmem : .scalar '}' ∈ c.rest) :
    Carries n behind c.moreVariables (c.within n behind).moreVariables := by
  rw [moreVariables_eq c, moreVariables_eq (c.within n behind), skip?_within hmem]
  cases hcomma : c.skip? ',' with
  | none => exact ⟨hmem, rfl⟩
  | some c₁ =>
    have hmem₁ := brace_mem_of_skip? hcomma (by decide) hmem
    -- the recursion goes on from behind the variable
    refine (variableSpec_carries hmem₁).bind fun v c₂ hv hmem₂ => ?_
    exact (moreVariables_carries _ hmem₂).bind fun vs c₃ _ hmem₃ => ⟨hmem₃, rfl⟩
termination_by c.rest.length
decreasing_by
  have := rest_lt_of_skip? hcomma
  have := variableSpec_rest_lt hv
  omega

/-- So does the list of all variables. -/
theorem variableList_carries (hmem : .scalar '}' ∈ c.rest) :
    Carries n behind c.variableList (c.within n behind).variableList := by
  refine (variableSpec_carries hmem).bind fun v c₁ _ hmem₁ => ?_
  exact (moreVariables_carries _ hmem₁).bind fun vs c₂ _ hmem₂ => ⟨hmem₂, rfl⟩

/-- The closing brace is no operator. -/
theorem operator?_within (hmem : .scalar '}' ∈ c.rest) :
    .scalar '}' ∈ c.operator?.2.rest ∧
      (c.within n behind).operator? = (c.operator?.1, c.operator?.2.within n behind) := by
  obtain ⟨x, rest, hrest⟩ := List.exists_cons_of_ne_nil (List.ne_nil_of_mem hmem)
  have hrest' : (c.within n behind).rest = x :: (rest ++ behind) := by
    rw [within, hrest, List.cons_append]
  -- both places have the same next character, so that both have the operator or neither has
  cases ho : Operator.ofSymbol? [x] with
  | none =>
    have hnone : c.operator? = (none, c) := by
      simp only [operator?, hrest, ho]
    have hnone' : (c.within n behind).operator? = (none, c.within n behind) := by
      simp only [operator?, hrest', ho]
    rw [hnone, hnone']
    exact ⟨hmem, rfl⟩
  | some o =>
    have hsome : c.operator? = (some o, ⟨c.column + 1, rest⟩) := by
      simp only [operator?, hrest, ho]
    have hsome' : (c.within n behind).operator? =
        (some o, ⟨n + c.column + 1, rest ++ behind⟩) := by
      simp only [operator?, hrest', ho]
      rfl
    -- the symbol is another character, so that the brace is behind it
    have hne : .scalar '}' ≠ x := by
      rintro rfl
      cases ho
    rw [hrest] at hmem
    rw [hsome, hsome']
    exact ⟨List.mem_of_ne_of_mem hne hmem, rfl⟩

/-- An expression that is closed is read in a longer text as in its own. -/
theorem expression?_within (hopen : c.skip? '{' = some c') (hmem : .scalar '}' ∈ c'.rest) :
    (c.within n behind).expression? = carry n behind c.expression? := by
  have hmem₀ : .scalar '}' ∈ c.rest := by
    rw [skip?_rest hopen]
    exact List.mem_cons_of_mem _ hmem
  have hopen' : (c.within n behind).skip? '{' = some (c'.within n behind) := by
    rw [skip?_within hmem₀, hopen, Option.map_some]
  have hmem' : .scalar '}' ∈ (c'.within n behind).rest := List.mem_append_left _ hmem
  obtain ⟨hmem₁, hoperator⟩ : _ ∧ (c'.within n behind).operator? = _ := operator?_within hmem
  rw [expression?_of_skip? _ _ hopen hmem, expression?_of_skip? _ _ hopen' hmem', hoperator]
  -- the closing brace itself is read last, and nothing has to be known behind it
  refine (variableList_carries hmem₁).bind_eq fun vs c₂ hmem₂ => ?_
  simp only [skip, skip?_within hmem₂]
  cases hclose : c₂.skip? '}' with
  | none =>
    simp only [Option.map_none, unexpected_within hmem₂]
    rfl
  | some c₃ => rfl

end Rules

/-! ## The own text of an expression -/

end Cursor

/-- A text in braces, with no other closing brace in it. -/
def Text.braced (body : Text) : Text := .scalar '{' :: (body ++ [.scalar '}'])

namespace Cursor

section Braced

variable {body : Text}

/-- A text in braces begins with an opening one. -/
theorem skip?_braced (body : Text) :
    (ofText body.braced 0).skip? '{' = some ⟨1, body ++ [.scalar '}']⟩ := rfl

/-- Nothing is behind the first closing brace. -/
theorem eq_nil_of_braced {run rest : Text} (hbody : .scalar '}' ∉ body)
    (h : body.braced = run ++ .scalar '}' :: rest) : rest = [] := by
  rcases List.eq_nil_or_concat' rest with rfl | ⟨front, x, rfl⟩
  · rfl
  · -- otherwise the brace in the middle stands in the body
    exfalso
    have happend : (.scalar '{' :: body) ++ [.scalar '}'] =
        (run ++ .scalar '}' :: front) ++ [x] := by
      rw [List.append_assoc]
      exact h
    have hmem : .scalar '}' ∈ CodePoint.scalar '{' :: body := by
      rw [(List.append_inj' happend rfl).1]
      exact List.mem_append_right _ List.mem_cons_self
    rcases List.mem_cons.mp hmem with hbrace | hmem
    · cases hbrace
    · exact hbody hmem

/-- A closing brace is behind any opening one. -/
theorem brace_mem_of_braced {run rest : Text} (h : body.braced = run ++ .scalar '{' :: rest) :
    .scalar '}' ∈ rest := by
  have hlast := congrArg List.getLast? h
  rw [Text.braced, ← List.cons_append, List.getLast?_append, List.getLast?_append] at hlast
  -- the last character of the text is its closing brace
  cases hrest : rest.getLast? with
  | none =>
    rw [List.getLast?_eq_none_iff.mp hrest] at hlast
    cases hlast
  | some x =>
    simp only [List.getLast?_cons, hrest] at hlast
    cases hlast
    exact List.mem_of_getLast? hrest

/-- An expression is written with a closing brace at its end. -/
theorem exists_format_eq (e : Expression) : ∃ front, e.format = front ++ [.scalar '}'] := ⟨_, rfl⟩

/-- An expression ends at its closing brace. -/
theorem column_of_expression? (hbody : .scalar '}' ∉ body) {e : Option Expression} {c : Cursor}
    (h : (ofText body.braced 0).expression? = .ok (e, c)) :
    (∃ x, e = some x) ∧ c.column = body.braced.length := by
  cases e with
  | none =>
    have hskip := skip?_of_expression? h
    cases hskip
  | some x =>
    refine ⟨⟨x, rfl⟩, ?_⟩
    obtain ⟨hreads, -⟩ := (expression?_sound _).ok h
    have hsplit : body.braced = x.format ++ c.rest := hreads.rest
    -- what was read ends with a closing brace, and that is the only one
    obtain ⟨front, hfront⟩ := exists_format_eq x
    have hrest : c.rest = [] :=
      eq_nil_of_braced hbody (hsplit.trans (by rw [hfront, List.append_assoc]; rfl))
    rw [column_of_reads hreads, hsplit, hrest, List.append_nil]
    rfl

/-- An error within an expression is behind its opening brace, and at its closing brace or in front
of it. -/
theorem column?_of_expression? {e : ParseError}
    (h : (ofText body.braced 0).expression? = .error e) :
    ∀ column ∈ e.column?, 0 < column ∧ column < body.braced.length := by
  intro column hcolumn
  cases (expression?_passes _).error h with
  | @stuck run c' s x hread hrun hx hno he =>
    obtain ⟨rest, hrest⟩ := List.head?_eq_some_iff.mp hx
    have hsplit : body.braced = run ++ x :: rest := hread.rest.trans (by rw [hrest])
    -- the opening brace itself is never what an expression stops at
    have hne : run ≠ [] := by
      rintro rfl
      cases hrun
      cases hsplit
      exact absurd hno (by decide)
    have hlength := congrArg List.length hsplit
    rw [List.length_append, List.length_cons] at hlength
    have hpos := List.length_pos_iff.mpr hne
    cases he with
    | unexpected expected hover =>
      cases hcolumn
      rw [column_of_reads hread]
      omega
    | oversizedLength digits hover hclose => cases hcolumn
  | @unclosed run rest c' hread hrun hopen hclose he =>
    -- the text ends with a closing brace, so that no expression in it is left open
    have hsplit : body.braced = run ++ .scalar '{' :: rest := hread.rest.trans (by rw [hopen])
    exact absurd (brace_mem_of_braced hsplit) hclose

end Braced

end Cursor

/-! ## Expressions in a text -/

/-- The error of a rule with its column further behind. -/
def RuleError.shift (n : Nat) : RuleError → RuleError
  | .fault (.parse e) => .fault (.parse (e.shift n))
  | .fault f => .fault f
  | .unexpected column found shown expected => .unexpected (n + column) found shown expected

namespace Value

/-- What a rule reads further behind. -/
def shiftReading (n : Nat) : Reading → Reading
  | .ok (v, column) => .ok (v, n + column)
  | .error e => .error (e.shift n)

/-- Between the two braces there is no other closing one. -/
theorem brace_notMem_slice {t : Text} {pos q : Nat}
    (hfirst : ∀ i, pos < i → i < q → t[i]? ≠ some (.scalar '}')) :
    .scalar '}' ∉ (t.take q).drop (pos + 1) := by
  intro hmem
  obtain ⟨i, hi⟩ := List.mem_iff_getElem?.mp hmem
  rw [List.getElem?_drop, List.getElem?_take] at hi
  split at hi
  · next hiq => exact hfirst _ (by omega) hiq hi
  · cases hi

section Slices

variable {t : Text} {pos q : Nat} (hopen : t[pos]? = some (.scalar '{'))
  (hclose : t[q]? = some (.scalar '}')) (hlt : pos < q)
include hopen hclose hlt

/-- The text from an opening brace to a closing one. -/
theorem slice_eq_braced :
    (t.take (q + 1)).drop pos = Text.braced ((t.take q).drop (pos + 1)) := by
  obtain ⟨hq, hclose⟩ := List.getElem?_eq_some_iff.mp hclose
  have hpos : pos < (t.take q).length := by
    rw [List.length_take]
    omega
  have hbrace : (t.take q)[pos] = .scalar '{' := by
    rw [List.getElem_take]
    exact (List.getElem?_eq_some_iff.mp hopen).2
  -- cut at the closing brace, the slice is the body with a brace on either side
  rw [List.take_add_one, List.getElem?_eq_getElem hq, hclose, Option.toList_some,
    List.drop_append_of_le_length (Nat.le_of_lt hpos), List.drop_eq_getElem_cons hpos, hbrace]
  rfl

/-- A place at an opening brace is a place in the text of the expression, with something in front
of it and something behind it. -/
theorem ofText_eq_within :
    Cursor.ofText t pos =
      (Cursor.ofText (Text.braced ((t.take q).drop (pos + 1))) 0).within pos (t.drop (q + 1)) := by
  have hq := (List.getElem?_eq_some_iff.mp hclose).1
  -- what is left at the place is the own text with the rest of the text behind it
  have hsplit : t.drop pos = (t.take (q + 1)).drop pos ++ t.drop (q + 1) := by
    rw [← List.drop_append_of_le_length (by rw [List.length_take]; omega), List.take_append_drop]
  rw [Cursor.ofText, hsplit, slice_eq_braced hopen hclose hlt]
  rfl

end Slices

/-- What is read as an expression is an expression, or the error of reading it. -/
theorem readRule_expression (t : Text) (pos : Nat) :
    readRule (.text t) .expression pos = match (Cursor.ofText t pos).expression? with
      | .ok (e, c) => .ok (.ofOption (fun e => .node (.expression e)) e, c.column)
      | .error e => .error (.fault (.parse e)) := by
  simp only [readRule, Rule.read]
  cases (Cursor.ofText t pos).expression? with
  | error e => rfl
  | ok p => rfl

/-- An expression is read from its own text, which goes from its opening brace up to the first
closing one.  The outcome at a column of a text is that for its own text with all columns moved, so
that nothing in front of it and behind it matters.  An expression ends right behind the closing
brace, and a syntax error lies behind the opening brace and not behind the closing one. -/
theorem expression_reads_own_text (t : Text) (pos q : Nat) (hopen : t[pos]? = some (.scalar '{'))
    (hclose : t[q]? = some (.scalar '}')) (hlt : pos < q)
    (hfirst : ∀ i, pos < i → i < q → t[i]? ≠ some (.scalar '}')) :
    readRule (.text t) .expression pos =
        shiftReading pos (readRule (.text ((t.take (q + 1)).drop pos)) .expression 0) ∧
      (∀ v e, readRule (.text t) .expression pos = .ok (v, e) →
        e = q + 1 ∧ ∃ x, v = .node (.expression x)) ∧
      ∀ err, readRule (.text t) .expression pos = .error err →
        ∃ p, err = .fault (.parse p) ∧ ∀ column ∈ p.column?, pos < column ∧ column ≤ q := by
  have hslice := slice_eq_braced hopen hclose hlt
  have hplace := ofText_eq_within hopen hclose hlt
  have hbody := brace_notMem_slice hfirst
  have hlength := congrArg List.length hslice
  have hq := (List.getElem?_eq_some_iff.mp hclose).1
  rw [List.length_drop, List.length_take] at hlength
  rw [hslice]
  -- from here on only the body between the braces and the places of both texts matter
  generalize (t.take q).drop (pos + 1) = body at *
  have hwithin : ((Cursor.ofText (Text.braced body) 0).within pos (t.drop (q + 1))).expression? =
      Cursor.carry pos (t.drop (q + 1)) (Cursor.ofText (Text.braced body) 0).expression? :=
    Cursor.expression?_within (Cursor.skip?_braced body)
      (List.mem_append_right _ List.mem_cons_self)
  rw [← hplace] at hwithin
  rw [readRule_expression, readRule_expression, hwithin]
  cases hrun : (Cursor.ofText (Text.braced body) 0).expression? with
  | error e =>
    -- the columns of errors are within the own text, and are moved with it
    have hcolumns := Cursor.column?_of_expression? hrun
    refine ⟨rfl, nofun, fun err herr => ?_⟩
    cases herr
    refine ⟨_, rfl, fun column hcolumn => ?_⟩
    rw [ParseError.column?_shift] at hcolumn
    obtain ⟨own, hown, rfl⟩ := Option.map_eq_some_iff.mp hcolumn
    have := hcolumns own hown
    omega
  | ok p =>
    obtain ⟨e, c⟩ := p
    -- what is read ends where the own text ends
    obtain ⟨⟨x, rfl⟩, hcolumn⟩ := Cursor.column_of_expression? hbody hrun
    refine ⟨rfl, fun v e hread => ?_, nofun⟩
    cases hread
    refine ⟨?_, x, rfl⟩
    simp only [Cursor.within]
    omega

/-- Nothing follows a comma: the error is at the closing brace, three columns into the expression
and four into the text. -/
theorem expression_reads_own_text_comma :
    readRule (.text "x{a,}y\x7d".toText) .expression 1 =
      .error (.fault (.parse (.unexpected 4 (some (.scalar '}')) .variableName))) := by
  have hfirst : ∀ i < 4, 1 < i → "x{a,}y\x7d".toText[i]? ≠ some (.scalar '}') := by decide
  -- on its own, the expression is parsed by evaluation
  have hown : readRule (.text "{a,}".toText) .expression 0 =
      .error (.fault (.parse (.unexpected 3 (some (.scalar '}')) .variableName))) := by
    have hrun : (Cursor.ofText "{a,}".toText 0).expression? =
        .error (.unexpected 3 (some (.scalar '}')) .variableName) := by decide +kernel
    rw [readRule_expression, hrun]
  have hread := (expression_reads_own_text "x{a,}y\x7d".toText 1 4 (by decide) (by decide)
    (by decide) fun i hpos hlt => hfirst i hlt hpos).1
  exact hread.trans (congrArg (shiftReading 1) hown)

end Value

end UriTemplate
