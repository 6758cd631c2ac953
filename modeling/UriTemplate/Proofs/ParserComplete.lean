import UriTemplate.Proofs.ParserSound
import UriTemplate.Proofs.Merging

/-!
# Completeness of the parser

The reverse of `ParserSound`: where the canonical text of a value stands in a text, the
rule for such values reads the value and gets behind its text.

A rule takes as much as it can, so it reads a value only where what stands behind its text
does not continue it.  Each lemma states what must not follow with `Text.Stops`; an empty
rest continues nothing.  Within an expression only commas and the closing brace ever follow a
variable, and neither can be taken for a part of it.
-/

namespace UriTemplate

/-- A text that does not begin with a character of a class. -/
def Text.Stops (p : CodePoint → Bool) (t : Text) : Prop := ∀ x ∈ t.head?, p x = false

/-- Where the text ends, everything stops. -/
theorem Text.stops_nil (p : CodePoint → Bool) : Text.Stops p [] := by
  intro x hx
  cases hx

/-- It is the first character alone that could go on. -/
theorem Text.stops_cons {p : CodePoint → Bool} {x : CodePoint} (t : Text) (h : p x = false) :
    Text.Stops p (x :: t) := by
  intro y hy
  cases hy
  exact h

/-- What no larger class begins, no class within it begins. -/
theorem Text.Stops.mono {p q : CodePoint → Bool} {t : Text} (h : t.Stops p)
    (hpq : ∀ x, q x = true → p x = true) : t.Stops q := by
  intro x hx
  have hp := h x hx
  cases hq : q x with
  | false => rfl
  | true =>
    rw [hpq x hq] at hp
    cases hp

namespace Cursor

/-! ## Reading a known text -/

/-- A text is read in any two pieces it is cut into. -/
theorem Reads.split {c c' : Cursor} {s t : Text} (h : Reads c (s ++ t) c') :
    ∃ c₁, Reads c s c₁ ∧ Reads c₁ t c' := by
  refine ⟨⟨c.column + s.length, t ++ c'.rest⟩, ⟨?_, rfl⟩, ⟨rfl, ?_⟩⟩
  · rw [h.rest, List.append_assoc]
  · rw [h.column, List.length_append, Nat.add_assoc]

/-- A character that is there is skipped. -/
theorem Reads.skip? {ch : Char} {c c' : Cursor} (h : Reads c [.scalar ch] c') :
    c.skip? ch = some c' := by
  obtain ⟨column, rest⟩ := c
  obtain ⟨column', rest'⟩ := c'
  obtain ⟨hrest, hcolumn⟩ := h
  simp only [List.singleton_append] at hrest
  subst hrest hcolumn
  simp [Cursor.skip?]

/-- A character that does not come next is not skipped. -/
theorem skip?_eq_none {ch : Char} {c : Cursor} (h : c.rest.head? ≠ some (.scalar ch)) :
    c.skip? ch = none := by
  unfold Cursor.skip?
  split
  · next x rest hrest =>
    rw [if_neg]
    rintro rfl
    simp [hrest] at h
  · rfl

/-- A run of a class that nothing continues is the longest one. -/
theorem Reads.takeWhile_eq {p : CodePoint → Bool} {c c' : Cursor} {run : Text}
    (h : Reads c run c') (hrun : ∀ x ∈ run, p x = true) (hstop : c'.rest.Stops p) :
    c.rest.takeWhile p = run ∧ ⟨c.column + run.length, c.rest.dropWhile p⟩ = c' := by
  -- behind the run there is no more of the class to take
  have hnone : c'.rest.takeWhile p = [] ∧ c'.rest.dropWhile p = c'.rest := by
    cases hrest : c'.rest with
    | nil => exact ⟨rfl, rfl⟩
    | cons x rest =>
      have hx := hstop x (by simp [hrest])
      exact ⟨List.takeWhile_cons_of_neg (by simp [hx]), List.dropWhile_cons_of_neg (by simp [hx])⟩
  constructor
  · rw [h.rest, List.takeWhile_append_of_pos hrun, hnone.1, List.append_nil]
  · rw [h.rest, List.dropWhile_append_of_pos hrun, hnone.2, ← h.column]

/-! ## Names, lengths and modifiers -/

/-- A run of name characters that nothing continues is read as a segment. -/
theorem segment_complete {c c' : Cursor} {run : Text} (h : Reads c run c') (hne : run ≠ [])
    (hrun : ∀ x ∈ run, x.isVarchar = true) (hstop : c'.rest.Stops CodePoint.isVarchar) :
    c.segment = .ok (run, c') := by
  obtain ⟨htake, hdrop⟩ := h.takeWhile_eq hrun hstop
  simp only [segment, htake, if_neg hne, hdrop]

end Cursor

/-- The characters that continue a name. -/
def CodePoint.continuesName (x : CodePoint) : Bool := x.isVarchar || x == .scalar '.'

/-- The characters that continue a variable. -/
def CodePoint.continuesSpec (x : CodePoint) : Bool :=
  x.continuesName || x == .scalar '*' || x == .scalar ':'

namespace Cursor

/-- Where a name stops, so does its last segment. -/
private theorem stops_varchar {t : Text} (h : t.Stops CodePoint.continuesName) :
    t.Stops CodePoint.isVarchar :=
  h.mono fun x hx => by simp [CodePoint.continuesName, hx]

/-- A dot would have continued the name. -/
private theorem head_ne_dot {t : Text} (h : t.Stops CodePoint.continuesName) :
    t.head? ≠ some (.scalar '.') := by
  intro hhead
  exact absurd (h _ hhead) (by decide)

/-- The loop over the segments of a name goes on behind a dot. -/
theorem dottedSegments_eq (c : Cursor) :
    c.dottedSegments = match c.skip? '.' with
      | none => .ok ([], c)
      | some c₁ => do
        let (run, c₂) ← c₁.segment
        let (more, c₃) ← c₂.dottedSegments
        return (.scalar '.' :: run ++ more, c₃) := by
  rw [dottedSegments]
  split
  · next hdot => rw [hdot]
  · next c₁ hdot =>
    split
    · next e he => simp only [hdot, he, bind, Except.bind]
    · next run c₂ hrun =>
      simp only [hdot, hrun, bind, Except.bind, pure, Except.pure]
      -- the remaining segments are read, or not, on both sides
      split <;> simp only [*]

/-- Where no dot follows, a name does not go on. -/
private theorem dottedSegments_of_stops {c : Cursor} (h : c.rest.Stops CodePoint.continuesName) :
    c.dottedSegments = .ok ([], c) := by
  rw [dottedSegments_eq, skip?_eq_none (head_ne_dot h)]

/-- A name behind a dot is read as further segments. -/
private theorem dottedSegments_complete (t : Text) (ht : Grammar.IsName t) {c c' : Cursor}
    (h : Reads c (.scalar '.' :: t) c') (hstop : c'.rest.Stops CodePoint.continuesName) :
    c.dottedSegments = .ok (.scalar '.' :: t, c') := by
  induction ht generalizing c with
  | segment run hne hrun =>
    -- the text is cut behind the dot
    obtain ⟨c₁, hdot, hseg⟩ := (show Reads c ([.scalar '.'] ++ _) c' from h).split
    have hread := segment_complete hseg hne hrun (stops_varchar hstop)
    have hend := dottedSegments_of_stops hstop
    rw [dottedSegments_eq, hdot.skip?]
    simp only [hread, hend, bind, Except.bind, pure, Except.pure, List.append_nil]
  | dotted run t hne hrun ht ih =>
    obtain ⟨c₁, hdot, hrest⟩ := (show Reads c ([.scalar '.'] ++ _) c' from h).split
    obtain ⟨c₂, hseg, hmore⟩ := hrest.split
    -- the next dot ends the segment
    have hdot₂ : c₂.rest.Stops CodePoint.isVarchar := by
      rw [hmore.rest]
      exact Text.stops_cons _ (by decide)
    have hread := segment_complete hseg hne hrun hdot₂
    have htail := ih hmore
    rw [dottedSegments_eq, hdot.skip?]
    simp only [hread, htail, bind, Except.bind, pure, Except.pure, List.cons_append]

/-- A name that nothing continues is read as such. -/
theorem variableName_complete (t : Text) (hvalid : t.isVarname = true) {c c' : Cursor}
    (h : Reads c t c') (hstop : c'.rest.Stops CodePoint.continuesName) :
    c.variableName = .ok (t, c') := by
  -- by the grammar: a single segment, or one that a dot ends
  cases (Grammar.isName_iff_isVarname t).mpr hvalid with
  | segment _ hne hrun =>
    have hread := segment_complete h hne hrun (stops_varchar hstop)
    have hend := dottedSegments_of_stops hstop
    simp only [variableName, hread, hend, bind, Except.bind, pure, Except.pure, List.append_nil]
  | dotted run t hne hrun ht =>
    obtain ⟨c₁, hseg, hmore⟩ := h.split
    have hdot : c₁.rest.Stops CodePoint.isVarchar := by
      rw [hmore.rest]
      exact Text.stops_cons _ (by decide)
    have hread := segment_complete hseg hne hrun hdot
    have hend := dottedSegments_complete t ht hmore hstop
    simp only [variableName, hread, hend, bind, Except.bind, pure, Except.pure]

/-- A length that is not too long is read as such. -/
theorem maxLength_complete (n : MaxLength) (hn : (Text.ofNat n.value).length ≤ Text.digitLimit)
    {c c' : Cursor} (h : Reads c (Text.ofNat n.value) c')
    (hstop : c'.rest.Stops CodePoint.isDigit) :
    c.maxLength = .ok (n, c') := by
  have hlength := Grammar.isLength_ofNat n.value n.positive
  obtain ⟨htake, hdrop⟩ := h.takeWhile_eq hlength.forall_isDigit hstop
  rw [← htake] at hlength hn
  rw [maxLength_of_isLength c hlength, if_neg (Nat.not_lt_of_le hn)]
  simp only [htake, hdrop, Text.decimal_ofNat]

/-- A digit continues a variable, as any character of a name does. -/
private theorem stops_digit {t : Text} (h : t.Stops CodePoint.continuesSpec) :
    t.Stops CodePoint.isDigit := by
  refine h.mono fun x hx => ?_
  have hvar : x.isVarchar = true := by
    simp only [CodePoint.isDigit, CodePoint.isVarchar, CodePoint.within, List.any_cons,
      List.any_nil, Bool.or_false, Bool.or_eq_true] at hx ⊢
    exact .inl hx
  simp [CodePoint.continuesSpec, CodePoint.continuesName, hvar]

/-- A modifier, or none, is read where nothing continues a variable. -/
theorem modifier?_complete (m : Option Modifier)
    (hm : ∀ n, m = some (.limit n) → (Text.ofNat n.value).length ≤ Text.digitLimit)
    {c c' : Cursor} (h : Reads c ((m.map Modifier.format).getD []) c')
    (hstop : c'.rest.Stops CodePoint.continuesSpec) :
    c.modifier? = .ok (m, c') := by
  -- a character that would be read as a modifier does not come next
  have hhead : ∀ ch : Char, (CodePoint.scalar ch).continuesSpec = true →
      c'.rest.head? ≠ some (.scalar ch) := by
    intro ch hch hhead
    rw [hstop _ hhead] at hch
    cases hch
  -- which modifier it is decides which characters come next
  cases m with
  | none =>
    cases Reads.eq_of_nil h
    have hstar := skip?_eq_none (hhead '*' (by decide))
    have hcolon := skip?_eq_none (hhead ':' (by decide))
    simp only [modifier?, hstar, hcolon]
  | some m =>
    cases m with
    | limit n =>
      obtain ⟨c₁, hcolon, hdigits⟩ := (show Reads c ([.scalar ':'] ++ _) c' from h).split
      -- the asterisk is looked for first, but a colon stands here
      have hstar : c.skip? '*' = none := by
        apply skip?_eq_none
        rw [hcolon.rest]
        simp
      have hread := maxLength_complete n (hm n rfl) hdigits (stops_digit hstop)
      simp only [modifier?, hstar, hcolon.skip?, hread]
      rfl
    | explode =>
      have hstar : c.skip? '*' = some c' := Reads.skip? h
      simp only [modifier?, hstar]

/-! ## Variables and expressions -/

/-- What the rule for names reads is the name of a variable. -/
theorem variableSpec_of_variableName {c c₁ : Cursor} {name : VarName}
    (h : c.variableName = .ok (name.text, c₁)) :
    c.variableSpec = (do
      let (modifier, c₂) ← c₁.modifier?
      return (⟨name, modifier⟩, c₂)) := by
  unfold variableSpec
  split
  · next e he =>
    rw [h] at he
    cases he
  · next name' c₂ hok =>
    rw [h] at hok
    cases hok
    rfl

/-- A variable that nothing continues is read as such. -/
theorem variableSpec_complete (v : VarSpec) (hv : v.IsReadable) {c c' : Cursor}
    (h : Reads c v.format c') (hstop : c'.rest.Stops CodePoint.continuesSpec) :
    c.variableSpec = .ok (v, c') := by
  obtain ⟨name, modifier⟩ := v
  obtain ⟨c₁, hname, hmod⟩ := h.split
  -- neither a modifier nor what stands behind the variable continues the name
  have hstop₁ : c₁.rest.Stops CodePoint.continuesName := by
    rw [hmod.rest]
    cases modifier with
    | none => exact hstop.mono fun x hx => by simp [CodePoint.continuesSpec, hx]
    | some m =>
      cases m with
      | limit n => exact Text.stops_cons _ (by decide)
      | explode => exact Text.stops_cons _ (by decide)
  have hread := variableName_complete name.text name.valid hname hstop₁
  have hlimit : ∀ n, modifier = some (.limit n) →
      (Text.ofNat n.value).length ≤ Text.digitLimit := by
    rintro n rfl
    exact hv n.value rfl
  have hread' := modifier?_complete modifier hlimit hmod hstop
  rw [variableSpec_of_variableName hread]
  simp only [hread', bind, Except.bind, pure, Except.pure]

/-- The loop over the variables of a list goes on behind a comma. -/
theorem moreVariables_eq (c : Cursor) :
    c.moreVariables = match c.skip? ',' with
      | none => .ok ([], c)
      | some c₁ => do
        let (v, c₂) ← c₁.variableSpec
        let (vs, c₃) ← c₂.moreVariables
        return (v :: vs, c₃) := by
  rw [moreVariables]
  split
  · next hcomma => rw [hcomma]
  · next c₁ hcomma =>
    split
    · next e he => simp only [hcomma, he, bind, Except.bind]
    · next v c₂ hv =>
      simp only [hcomma, hv, bind, Except.bind, pure, Except.pure]
      split <;> simp only [*]

/-- In front of a comma or of the closing brace a variable ends. -/
private theorem stops_of_reads {vs : List VarSpec} {c c' : Cursor} {rest : Text}
    (h : Reads c (vs.flatMap fun v => .scalar ',' :: v.format) c')
    (hclose : c'.rest = .scalar '}' :: rest) : c.rest.Stops CodePoint.continuesSpec := by
  rw [h.rest, hclose]
  cases vs with
  | nil => exact Text.stops_cons _ (by decide)
  | cons v vs => exact Text.stops_cons _ (by decide)

/-- Variables behind commas are read as such up to the closing brace. -/
private theorem moreVariables_complete (vs : List VarSpec) (hvs : ∀ v ∈ vs, v.IsReadable)
    {c c' : Cursor} {rest : Text} (h : Reads c (vs.flatMap fun v => .scalar ',' :: v.format) c')
    (hclose : c'.rest = .scalar '}' :: rest) :
    c.moreVariables = .ok (vs, c') := by
  -- a comma is in front of each variable
  induction vs generalizing c with
  | nil =>
    rw [Reads.eq_of_nil h] at hclose ⊢
    -- at the closing brace the list is over
    have hcomma : c.skip? ',' = none := by
      apply skip?_eq_none
      simp [hclose]
    rw [moreVariables_eq, hcomma]
  | cons v vs ih =>
    rw [List.forall_mem_cons] at hvs
    obtain ⟨c₁, hcomma, hrest⟩ := (show Reads c ([.scalar ','] ++ _) c' from h).split
    obtain ⟨c₂, hv, hmore⟩ := hrest.split
    have hread := variableSpec_complete v hvs.1 hv (stops_of_reads hmore hclose)
    have htail := ih hvs.2 hmore
    rw [moreVariables_eq, hcomma.skip?]
    simp only [hread, htail, bind, Except.bind, pure, Except.pure]

/-- A list of variables is read as such up to the closing brace. -/
theorem variableList_complete (v : VarSpec) (vs : List VarSpec)
    (hvs : ∀ w ∈ v :: vs, w.IsReadable) {c c' : Cursor} {rest : Text}
    (h : Reads c (",".toText.intercalate ((v :: vs).map VarSpec.format)) c')
    (hclose : c'.rest = .scalar '}' :: rest) :
    c.variableList = .ok (⟨v :: vs, List.cons_ne_nil v vs⟩, c') := by
  rw [List.map_cons, Grammar.intercalate_comma, List.flatMap_map] at h
  rw [List.forall_mem_cons] at hvs
  obtain ⟨c₁, hv, hmore⟩ := h.split
  have hread := variableSpec_complete v hvs.1 hv (stops_of_reads hmore hclose)
  have hread' := moreVariables_complete vs hvs.2 hmore hclose
  simp only [variableList, hread, hread', bind, Except.bind, pure, Except.pure]

/-- The symbol of a registered operator is read as that operator. -/
private theorem operator?_of_registered (o : Operator) (ho : o ∈ Operator.registered)
    {c c' : Cursor} (h : Reads c o.symbol c') : c.operator? = (some o, c') := by
  -- no two registered operators share a symbol
  have hlookup : ∀ o ∈ Operator.registered, Operator.ofSymbol? o.symbol = some o := by decide
  obtain ⟨x, hx⟩ := List.length_eq_one_iff.mp (Operator.registered_symbol_length o ho)
  have hfound := hlookup o ho
  obtain ⟨column, rest⟩ := c
  obtain ⟨column', rest'⟩ := c'
  obtain ⟨hrest, hcolumn⟩ := h
  rw [hx] at hfound hrest hcolumn
  simp only [List.singleton_append] at hrest
  subst hrest hcolumn
  simp only [operator?, hfound]
  rfl

/-- A character of a name is the symbol of no operator. -/
private theorem operator?_of_isVarchar {c : Cursor} {x : CodePoint} {rest : Text}
    (hrest : c.rest = x :: rest) (hx : x.isVarchar = true) : c.operator? = (none, c) := by
  -- this is looked up in the table
  have hsymbols : ∀ o ∈ Operator.registered, ∀ x ∈ o.symbol, x.isVarchar = false := by decide
  have hnone : Operator.ofSymbol? [x] = none := by
    -- an operator that is found would have the character as its symbol
    cases hfound : Operator.ofSymbol? [x] with
    | none => rfl
    | some o =>
      have hmem : x ∈ o.symbol := by simp [Operator.symbol_of_ofSymbol? hfound]
      have hfalse := hsymbols o (List.mem_of_find?_eq_some hfound) x hmem
      rw [hx] at hfalse
      cases hfalse
  simp only [operator?, hrest, hnone]

/-- A list of variables begins with a character of a name. -/
private theorem exists_varchar (v : VarSpec) (vs : List VarSpec) :
    ∃ x rest, ",".toText.intercalate ((v :: vs).map VarSpec.format) = x :: rest ∧
      x.isVarchar = true := by
  have hname := (Grammar.isName_iff_isVarname v.name.text).mpr v.name.valid
  obtain ⟨x, rest, hx, hvar⟩ := hname.head
  rw [List.map_cons, Grammar.intercalate_comma, VarSpec.format, hx]
  exact ⟨x, _, rfl, hvar⟩

/-- An expression is read as such, whatever stands behind it. -/
theorem expression?_complete (e : Expression) (hreg : e.IsRegistered)
    (hspecs : ∀ v ∈ e.specs, v.IsReadable) {c c' : Cursor} (h : Reads c e.format c') :
    c.expression? = .ok (some e, c') := by
  obtain ⟨specs, operator, hne⟩ := e
  obtain ⟨v, vs, rfl⟩ := List.exists_cons_of_ne_nil hne
  -- the text is cut at the braces and behind the operator
  obtain ⟨c₃, hbody, hclose⟩ := h.split
  obtain ⟨c₁, hopen, hbody⟩ := (show Reads c ([.scalar '{'] ++ _) c₃ from hbody).split
  obtain ⟨c₂, hop, hlist⟩ := hbody.split
  -- the look-ahead finds the closing brace of this expression, if not an earlier one
  have hmem : .scalar '}' ∈ c₁.rest := by
    rw [hop.rest, hlist.rest, hclose.rest]
    simp
  have hoperator : c₁.operator? = (operator, c₂) := by
    cases operator with
    | none =>
      -- the first name begins here, with a character that is no operator
      cases Reads.eq_of_nil hop
      obtain ⟨x, rest, hx, hvar⟩ := exists_varchar v vs
      have hrest := hlist.rest
      rw [hx] at hrest
      exact operator?_of_isVarchar hrest hvar
    | some o => exact operator?_of_registered o (hreg o rfl) hop
  have hread := variableList_complete v vs hspecs hlist hclose.rest
  rw [expression?_of_skip? c c₁ hopen.skip? hmem, hoperator]
  simp only [hread, skip, hclose.skip?, bind, Except.bind, pure, Except.pure]

/-! ## Parts and templates -/

/-- A literal that no literal character continues is read as such. -/
theorem literal?_complete (l : Literal) {c c' : Cursor} (h : Reads c l.text c')
    (hstop : c'.rest.Stops CodePoint.isLiteral) : c.literal? = some (l, c') := by
  obtain ⟨htake, hdrop⟩ := h.takeWhile_eq l.allowed hstop
  simp only [literal?, htake, dif_neg l.nonempty, hdrop]

/-- A part is read as such, if no literal character continues a literal. -/
theorem part_complete (p : Part) (hp : p.IsReadable) {c c' : Cursor} (h : Reads c p.format c')
    (hstop : p.isLiteral = true → c'.rest.Stops CodePoint.isLiteral) :
    c.part = .ok (p, c') := by
  -- an expression is tried first, and a literal is read where none begins
  cases p with
  | expression e =>
    have hread := expression?_complete e hp.1 hp.2 h
    simp only [part, hread, bind, Except.bind, pure, Except.pure]
  | literal l =>
    -- a literal begins with a literal character, and the opening brace is none
    have hopen : c.skip? '{' = none := by
      apply skip?_eq_none
      obtain ⟨x, text, hx⟩ := List.exists_cons_of_ne_nil l.nonempty
      have hlit := l.allowed x (by simp [hx])
      have hrest := h.rest
      rw [Part.format, hx] at hrest
      simp only [hrest, List.cons_append, List.head?_cons, ne_eq, Option.some.injEq]
      intro hbrace
      rw [hbrace] at hlit
      exact absurd hlit (by decide)
    have hread := literal?_complete l h (hstop rfl)
    simp only [part, expression?, hopen, hread, bind, Except.bind, pure, Except.pure]

/-- What is not a literal begins with a brace, which continues no literal. -/
private theorem stops_literal {q : Part} (hq : q.isLiteral = false) (t : Text) :
    Text.Stops CodePoint.isLiteral (q.format ++ t) := by
  cases q with
  | literal l => cases hq
  | expression e =>
    rw [Part.format, Expression.format]
    exact Text.stops_cons _ (by decide)

/-- The loop over the parts of a template goes on up to the end of the text. -/
theorem parts_eq (c : Cursor) :
    c.parts = if c.rest = [] then .ok ([], c) else do
      let (p, c₁) ← c.part
      let (ps, c₂) ← c₁.parts
      return (p :: ps, c₂) := by
  rw [parts]
  split
  · rfl
  · split
    · next e he => simp only [he, bind, Except.bind]
    · next p c₁ hp =>
      simp only [hp, bind, Except.bind, pure, Except.pure]
      split <;> simp only [*]

/-- Parts of which no two literals are adjacent are read as such up to the end of the text. -/
theorem parts_complete (ps : List Part) (hps : ∀ p ∈ ps, p.IsReadable)
    (hmerged : Template.IsMerged ⟨ps⟩) {c c' : Cursor}
    (h : Reads c (ps.flatMap Part.format) c') (hend : c'.rest = []) :
    c.parts = .ok (ps, c') := by
  -- part by part, each of which ends where the next one begins
  induction ps generalizing c with
  | nil =>
    cases Reads.eq_of_nil h
    rw [parts_eq, if_pos hend]
  | cons p ps ih =>
    rw [List.forall_mem_cons] at hps
    obtain ⟨hhead, htail⟩ := List.isChain_cons.mp hmerged
    obtain ⟨c₁, hp, hmore⟩ := h.split
    -- behind a literal the text ends, or an expression begins
    have hstop : p.isLiteral = true → c₁.rest.Stops CodePoint.isLiteral := by
      intro hlit
      rw [hmore.rest, hend, List.append_nil]
      cases ps with
      | nil => exact Text.stops_nil _
      | cons q qs =>
        have hq : q.isLiteral = false := by simpa [hlit] using hhead q rfl
        exact stops_literal hq _
    have hread := part_complete p hps.1 hp hstop
    -- a part was read, so that the text does not end before it
    have hne : c.rest ≠ [] := by
      intro hnil
      have hlt := part_rest_lt hread
      rw [hnil] at hlt
      exact absurd hlt (Nat.not_lt_zero _)
    have hrest := ih hps.2 htail hmore
    rw [parts_eq, if_neg hne]
    simp only [hread, hrest, bind, Except.bind, pure, Except.pure]

end Cursor

/-- The canonical text of a template is parsed to its merged form. -/
theorem Template.parse_format_eq (t : Template) (hreg : t.IsRegistered) (hread : t.IsReadable) :
    Template.parse t.format = .ok t.merged := by
  have hreads : Cursor.Reads (.ofText t.format 0) (t.merged.parts.flatMap Part.format)
      ⟨t.format.length, []⟩ := by
    -- merging does not show in the text
    have hformat : t.merged.parts.flatMap Part.format = t.format := t.format_merged
    rw [hformat]
    exact ⟨(List.append_nil _).symm, (Nat.zero_add _).symm⟩
  -- merging keeps the expressions, and what is asked of them
  have hparts : ∀ p ∈ t.merged.parts, p.IsReadable := by
    rw [Template.forall_parts_isReadable]
    simp only [IsRegistered, IsReadable, t.expressions_merged]
    exact ⟨hreg, hread⟩
  have hok := Cursor.parts_complete t.merged.parts hparts t.isMerged_merged hreads rfl
  simp only [Template.parse, Cursor.template, hok, bind, Except.bind, pure, Except.pure]

end UriTemplate
