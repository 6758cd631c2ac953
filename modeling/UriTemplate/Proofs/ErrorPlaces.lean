import UriTemplate.Proofs.ParserCorrect
import UriTemplate.Proofs.Stages

/-!
# Where a text stops being a template

The rules of the parser go through the stages of a template.  A rule that succeeds has read a
text that leads to some stage, and nothing behind it continues what was read (`Cursor.Follows`).
A rule that fails has got to a stage which the next character does not fit (`Cursor.Jams`).

So the texts that parse are those that lead out of every expression
(`exists_parse_eq_ok_iff`), and the column of an error is the length of the longest part of the
text that can be completed to a template.  Only where an expression is never closed is the
error placed at its opening brace, before the text is read any further.
-/

namespace UriTemplate

/-! ## Runs of a class -/

/-- Behind the longest run of a class no other character of the class follows. -/
theorem Text.stops_dropWhile (p : CodePoint → Bool) (t : Text) : Text.Stops p (t.dropWhile p) := by
  intro x hx
  have h := List.head?_dropWhile_not p t
  rw [hx] at h
  exact h

/-- Where the longest run of a class is empty, no character of the class comes next. -/
theorem Text.stops_of_takeWhile {p : CodePoint → Bool} {t : Text} (h : t.takeWhile p = []) :
    Text.Stops p t := by
  have hdrop := Text.stops_dropWhile p t
  have hsplit := List.takeWhile_append_dropWhile (p := p) (l := t)
  rw [h, List.nil_append] at hsplit
  rwa [hsplit] at hdrop

namespace Cursor

/-- What is not skipped is not the next character. -/
theorem head?_ne_of_skip? {ch : Char} {c : Cursor} (h : c.skip? ch = none) :
    c.rest.head? ≠ some (.scalar ch) := by
  intro hhead
  obtain ⟨rest, hrest⟩ := List.head?_eq_some_iff.mp hhead
  unfold Cursor.skip? at h
  rw [hrest] at h
  simp at h

/-! ## Outcomes of the rules within an expression -/

/-- A length has as many digits as can be read, and goes on. -/
def Overflows (s : Stage) (t : Text) : Prop :=
  s = .inside (.length Text.digitLimit) ∧ ∃ x ∈ t.head?, x.isDigit = true

/-- Only a length that is full can overflow. -/
theorem not_overflows_of_ne {s : Stage} {t : Text} (h : s ≠ .inside (.length Text.digitLimit)) :
    ¬ Overflows s t :=
  fun hover => h hover.1

/-- The errors of a place in a stage: the digits are too many, or else what comes next was not
expected. -/
inductive Blames (s : Stage) (c : Cursor) : ParseError → Prop
  | unexpected (expected : Expected) (h : ¬ Overflows s c.rest) :
      Blames s c (c.unexpected expected)
  | oversizedLength (digits : Nat) (h : Overflows s c.rest) (hclose : .scalar '}' ∈ c.rest) :
      Blames s c (.oversizedLength digits)

/-- How a rule fails that begins in a stage within an expression: it has read a text which leads
to a stage that the next character does not fit.  The rules are only used where the expression is
closed somewhere. -/
inductive Jams (i : Inside) (c : Cursor) (e : ParseError) : Prop
  | intro {run : Text} {c' : Cursor} {j : Inside} (h : Reads c run c')
      (hrun : i.run? run = some j)
      (hno : ∀ x ∈ c'.rest.head?, (Stage.inside j).step? x = none)
      (he : .scalar '}' ∈ c'.rest → Blames (.inside j) c' e)

variable {i j : Inside} {c c' : Cursor} {run : Text} {e : ParseError}

/-- What fails behind a text that was read fails from the place before it. -/
theorem Jams.of_reads (h : Reads c run c') (hrun : i.run? run = some j) (hjams : Jams j c' e) :
    Jams i c e := by
  obtain ⟨h', hrun', hno, he⟩ := hjams
  exact .intro (h.trans h') ((Inside.run?_append hrun _).trans hrun') hno he

/-- The outcome of a rule that begins in a stage: it has read a text that leads to a stage, with
what is known of that stage and of the text behind it, or it fails. -/
def Follows {α : Type} (i : Inside) (c : Cursor) (good : Inside → Text → Prop) :
    Except ParseError (α × Cursor) → Prop
  | .ok (_, c') => ∃ run j, Reads c run c' ∧ i.run? run = some j ∧ good j c'.rest
  | .error e => Jams i c e

namespace Follows

variable {α β : Type} {good good' : Inside → Text → Prop}
  {r : Except ParseError (α × Cursor)}

/-- What is known of a rule that has succeeded. -/
theorem ok {a : α} (h : Follows i c good r) (hr : r = .ok (a, c')) :
    ∃ run j, Reads c run c' ∧ i.run? run = some j ∧ good j c'.rest := by
  rw [hr] at h
  exact h

/-- What is known of a rule that has failed. -/
theorem error (h : Follows i c good r) (hr : r = .error e) : Jams i c e := by
  rw [hr] at h
  exact h

/-- A rule that reads nothing stays where it is. -/
theorem refl (a : α) (h : good i c.rest) : Follows i c good (.ok (a, c)) :=
  ⟨[], i, .refl c, rfl, h⟩

/-- A rule that begins behind a text that was read. -/
theorem after (h : Reads c run c') (hrun : i.run? run = some j) (hr : Follows j c' good r) :
    Follows i c good r := by
  cases r with
  | error e => exact Jams.of_reads h hrun hr
  | ok p =>
    obtain ⟨run', k, h', hrun', hgood⟩ := hr
    exact ⟨run ++ run', k, h.trans h', (Inside.run?_append hrun _).trans hrun', hgood⟩

/-- A rule that goes on from where another rule has got to. -/
theorem bind {f : α × Cursor → Except ParseError (β × Cursor)} (h : Follows i c good r)
    (hf : ∀ a c' j, good j c'.rest → Follows j c' good' (f (a, c'))) :
    Follows i c good' (r >>= f) := by
  cases r with
  | error e => exact h
  | ok p =>
    obtain ⟨run, j, hread, hrun, hgood⟩ := h
    exact after hread hrun (hf p.1 p.2 j hgood)

end Follows

/-! ## Names, lengths and modifiers -/

/-- A segment leads into a name, and the name characters behind it have all been read. -/
theorem segment_follows (c : Cursor) :
    Follows .segment c (fun j t => j = .name ∧ t.Stops CodePoint.isVarchar) c.segment := by
  unfold segment
  dsimp only
  -- an empty run is the error of a missing name; a run that is not empty is the longest one
  split
  · next hnil =>
    refine .intro (.refl c) rfl (fun x hx => ?_)
      fun _ => .unexpected .variableName (not_overflows_of_ne (by simp))
    have hvar := Text.stops_of_takeWhile hnil x hx
    exact Stage.step?_inside_eq_none (by simp [Inside.step?, hvar]) fun _ => rfl
  · next hne =>
    have hrun := Inside.run?_segment hne fun x hx => Text.mem_takeWhile hx
    exact ⟨_, .name, .takeWhile _ c, hrun, rfl, Text.stops_dropWhile _ _⟩

/-- A segment has ended, and the name goes on behind dots. -/
theorem dottedSegments_follows (c : Cursor) (hstop : c.rest.Stops CodePoint.isVarchar) :
    Follows .name c (fun j t => j = .name ∧ t.Stops CodePoint.continuesName)
      c.dottedSegments := by
  fun_induction dottedSegments c with
  | case1 c hdot =>
    refine .refl _ ⟨rfl, fun x hx => ?_⟩
    have hne : x ≠ .scalar '.' := by
      rintro rfl
      exact head?_ne_of_skip? hdot hx
    simp [CodePoint.continuesName, hstop x hx, hne]
  | case2 c c₁ hdot e hrun =>
    -- the dot has no segment behind it
    exact Jams.of_reads (.of_skip? hdot) rfl ((segment_follows c₁).error hrun)
  | case3 c c₁ hdot run c₂ hrun e he ih =>
    obtain ⟨seg, j, hread, hseg, rfl, hstop₂⟩ := (segment_follows c₁).ok hrun
    have hjams := Jams.of_reads hread hseg ((ih hstop₂).error he)
    exact Jams.of_reads (.of_skip? hdot) rfl hjams
  | case4 c c₁ hdot run c₂ hrun more c₃ hmore ih =>
    obtain ⟨seg, j, hread, hseg, rfl, hstop₂⟩ := (segment_follows c₁).ok hrun
    obtain ⟨tail, k, hread', htail, hgood⟩ := (ih hstop₂).ok hmore
    have hrun := (Inside.run?_append hseg tail).trans htail
    exact ⟨_, k, (Reads.of_skip? hdot).trans (hread.trans hread'), hrun, hgood⟩

/-- A name leads into a name, and nothing behind it goes on with it. -/
theorem variableName_follows (c : Cursor) :
    Follows .segment c (fun j t => j = .name ∧ t.Stops CodePoint.continuesName)
      c.variableName := by
  unfold variableName
  refine (segment_follows c).bind fun run c₁ j hgood => ?_
  obtain ⟨rfl, hstop⟩ := hgood
  refine (dottedSegments_follows c₁ hstop).bind fun more c₂ j hgood => ?_
  exact .refl _ hgood

/-- The variable may end in a stage, and what comes next does not continue it. -/
structure Ended (j : Inside) (t : Text) : Prop where
  closes : j.closes = true
  next : ∀ x ∈ t.head?, x ≠ .scalar ',' → j.step? x = none
  not_overflows : ¬ Overflows (.inside j) t

/-- The first digits of a length are a length. -/
theorem isLength_take {t : Text} (h : Grammar.IsLength t) {n : Nat} (hn : 0 < n) :
    Grammar.IsLength (t.take n) := by
  obtain ⟨d, ds, hd, hd0, hds⟩ := h
  obtain ⟨m, rfl⟩ := Nat.exists_eq_succ_of_ne_zero (Nat.ne_of_gt hn)
  rw [List.take_succ_cons]
  exact .digits d _ hd hd0 fun x hx => hds x (List.mem_of_mem_take hx)

/-- Where no length begins, the next character does not fit behind a colon. -/
theorem step?_colon_of_not_isLength
    (h : ¬ Grammar.IsLength (c.rest.takeWhile CodePoint.isDigit)) :
    ∀ x ∈ c.rest.head?, Inside.colon.step? x = none := by
  intro x hx
  obtain ⟨rest, hrest⟩ := List.head?_eq_some_iff.mp hx
  simp only [Inside.step?]
  rw [if_neg]
  rintro ⟨hd, hd0⟩
  apply h
  rw [hrest, List.takeWhile_cons_of_pos hd]
  exact .digits x _ hd hd0 fun y hy => Text.mem_takeWhile hy

/-- Behind the most digits that can be read no other one fits. -/
theorem step?_length_of_isDigit {x : CodePoint} (h : x.isDigit = true) :
    (Stage.inside (.length Text.digitLimit)).step? x = none := by
  apply Stage.step?_inside_eq_none
  · simp [Inside.step?, h]
  · rintro rfl
    exact absurd h (by decide)

/-- Too many digits are read up to the limit, where one more comes next. -/
theorem jams_of_oversized (h : Grammar.IsLength (c.rest.takeWhile CodePoint.isDigit))
    (hlong : Text.digitLimit < (c.rest.takeWhile CodePoint.isDigit).length) (digits : Nat) :
    Jams .colon c (.oversizedLength digits) := by
  have hall := h.forall_isDigit
  have hsplit := List.takeWhile_append_dropWhile (p := CodePoint.isDigit) (l := c.rest)
  generalize c.rest.takeWhile CodePoint.isDigit = ds at h hlong hall hsplit
  -- the digits up to the limit have been read, and one more comes next
  have hlen : (ds.take Text.digitLimit).length = Text.digitLimit := by
    rw [List.length_take]
    omega
  have hreads : Reads c (ds.take Text.digitLimit)
      ⟨c.column + Text.digitLimit,
        ds.drop Text.digitLimit ++ c.rest.dropWhile CodePoint.isDigit⟩ := by
    constructor
    · rw [← List.append_assoc, List.take_append_drop, hsplit]
    · rw [hlen]
  have hrun := Inside.run?_colon (isLength_take h (n := Text.digitLimit) (by decide))
    (Nat.le_of_eq hlen)
  rw [hlen] at hrun
  have hdigit := hall ds[Text.digitLimit] (List.getElem_mem hlong)
  rw [List.drop_eq_getElem_cons hlong] at hreads
  refine .intro hreads hrun (fun x hx => ?_) fun hclose =>
    .oversizedLength digits ⟨rfl, _, rfl, hdigit⟩ hclose
  cases hx
  exact step?_length_of_isDigit hdigit

/-- A prefix length ends where its digits do, unless there are too many. -/
theorem maxLength_follows (c : Cursor) : Follows .colon c Ended c.maxLength := by
  -- first whether a length begins here, and then whether its digits can be read
  by_cases h : Grammar.IsLength (c.rest.takeWhile CodePoint.isDigit)
  · rw [maxLength_of_isLength c h]
    split
    · next hlong => exact jams_of_oversized h hlong _
    · next hshort =>
      have hrun := Inside.run?_colon h (Nat.le_of_not_lt hshort)
      have hstop := Text.stops_dropWhile CodePoint.isDigit c.rest
      refine ⟨_, _, .takeWhile CodePoint.isDigit c, hrun, rfl, fun x hx hcomma => ?_, ?_⟩
      · simp [Inside.step?, hstop x hx, hcomma]
      · rintro ⟨-, x, hx, hdigit⟩
        rw [hstop x hx] at hdigit
        cases hdigit
  · rw [maxLength_of_not_isLength c h]
    refine .intro (.refl c) rfl (fun x hx => ?_)
      fun _ => .unexpected .maxLength (not_overflows_of_ne (by simp))
    exact Stage.step?_inside_eq_none (step?_colon_of_not_isLength h x hx) fun _ => rfl

/-- Behind a name a modifier is read, or what comes next begins none. -/
theorem modifier?_follows (c : Cursor) (hstop : c.rest.Stops CodePoint.continuesName) :
    Follows .name c Ended c.modifier? := by
  unfold modifier?
  split
  · next c₁ hstar =>
    refine ⟨_, .star, .of_skip? hstar, rfl, rfl, fun x _ hcomma => ?_,
      not_overflows_of_ne (by simp)⟩
    simp [Inside.step?, hcomma]
  · next hstar =>
    split
    · next c₁ hcolon =>
      refine Follows.after (.of_skip? hcolon) (j := .colon) rfl ?_
      refine (maxLength_follows c₁).bind fun length c₂ j hgood => ?_
      exact .refl _ hgood
    · next hcolon =>
      refine .refl _ ⟨rfl, fun x hx hcomma => ?_, not_overflows_of_ne (by simp)⟩
      -- what comes next is neither of the two signs, nor part of the name
      have hname := hstop x hx
      simp only [CodePoint.continuesName, Bool.or_eq_false_iff, beq_eq_false_iff_ne] at hname
      have hne_star : x ≠ .scalar '*' := by
        rintro rfl
        exact head?_ne_of_skip? hstar hx
      have hne_colon : x ≠ .scalar ':' := by
        rintro rfl
        exact head?_ne_of_skip? hcolon hx
      simp [Inside.step?, hname, hcomma, hne_star, hne_colon]

/-! ## Variables -/

/-- A variable ends behind its name or behind its modifier. -/
theorem variableSpec_follows (c : Cursor) : Follows .segment c Ended c.variableSpec := by
  unfold variableSpec
  split
  · next e he => exact (variableName_follows c).error he
  · next name c₁ hok =>
    obtain ⟨run, j, hread, hrun, rfl, hstop⟩ := (variableName_follows c).ok hok
    refine Follows.after hread hrun ?_
    refine (modifier?_follows c₁ hstop).bind fun m c₂ j hgood => ?_
    exact .refl _ hgood

/-- The expression may be closed in a stage, and what comes next does not continue it. -/
structure Closing (j : Inside) (t : Text) : Prop where
  closes : j.closes = true
  next : ∀ x ∈ t.head?, j.step? x = none
  not_overflows : ¬ Overflows (.inside j) t

/-- A variable has ended, and the list goes on behind commas. -/
theorem moreVariables_follows (c : Cursor) (h : Ended i c.rest) :
    Follows i c Closing c.moreVariables := by
  fun_induction moreVariables c generalizing i with
  | case1 c hcomma =>
    -- the list ends where no comma follows
    refine .refl _ ⟨h.closes, fun x hx => h.next x hx ?_, h.not_overflows⟩
    rintro rfl
    exact head?_ne_of_skip? hcomma hx
  | case2 c c₁ hcomma e hv =>
    -- the comma is read, and the variable behind it fails
    exact Jams.of_reads (.of_skip? hcomma) (Inside.run?_comma h.closes)
      ((variableSpec_follows c₁).error hv)
  | case3 c c₁ hcomma v c₂ hv e he ih =>
    -- so is the variable, and a later one fails
    obtain ⟨run, j, hread, hrun, hended⟩ := (variableSpec_follows c₁).ok hv
    have hjams := Jams.of_reads hread hrun ((ih hended).error he)
    exact Jams.of_reads (.of_skip? hcomma) (Inside.run?_comma h.closes) hjams
  | case4 c c₁ hcomma v c₂ hv vs c₃ hvs ih =>
    obtain ⟨run, j, hread, hrun, hended⟩ := (variableSpec_follows c₁).ok hv
    obtain ⟨tail, k, hread', htail, hgood⟩ := (ih hended).ok hvs
    -- the comma, the variable and the rest of the list in one run
    have hrest := (Inside.run?_append hrun tail).trans htail
    have hall := (Inside.run?_append (Inside.run?_comma h.closes) _).trans hrest
    exact ⟨_, k, (Reads.of_skip? hcomma).trans (hread.trans hread'), hall, hgood⟩

/-- A list of variables ends in a stage where the expression may be closed. -/
theorem variableList_follows (c : Cursor) : Follows .segment c Closing c.variableList := by
  unfold variableList
  refine (variableSpec_follows c).bind fun v c₁ j hended => ?_
  refine (moreVariables_follows c₁ hended).bind fun vs c₂ k hgood => ?_
  exact .refl _ hgood

/-! ## Expressions -/

/-- Behind the opening brace, what is no operator has to begin a name. -/
theorem step?_opened {x : CodePoint} (hx : Operator.ofSymbol? [x] = none) :
    Inside.opened.step? x = Inside.segment.step? x ∧
      (Stage.inside .opened).step? x = (Stage.inside .segment).step? x := by
  simp [Stage.step?, Inside.step?, hx, Inside.closes]

/-- A list of variables that no operator precedes begins behind the opening brace. -/
theorem follows_opened {α : Type} {r : Except ParseError (α × Cursor)}
    (hop : ∀ x ∈ c.rest.head?, Operator.ofSymbol? [x] = none)
    (h : Follows .segment c Closing r) : Follows .opened c Closing r := by
  -- a text that was read begins with what comes next, which is no operator
  have hopened : ∀ {run : Text} {c' : Cursor}, Reads c run c' → run ≠ [] →
      Inside.opened.run? run = Inside.segment.run? run := by
    intro run c' hread hne
    obtain ⟨x, run, rfl⟩ := List.exists_cons_of_ne_nil hne
    have hx : x ∈ c.rest.head? := by
      rw [hread.rest]
      rfl
    rw [Inside.run?_cons, (step?_opened (hop x hx)).1, Inside.run?_cons]
  -- success and failure both hand over what was read behind the brace
  cases r with
  | ok p =>
    obtain ⟨run, j, hread, hj, hgood⟩ := h
    have hne : run ≠ [] := by
      rintro rfl
      cases hj
      cases hgood.closes
    exact ⟨run, j, hread, (hopened hread hne).trans hj, hgood⟩
  | error e =>
    obtain @⟨run, c', j, hread, hj, hno, he⟩ := h
    by_cases hne : run = []
    · -- nothing has been read, and what comes next does not begin a name either
      subst hne
      cases hj
      refine .intro hread rfl (fun x hx => ?_) fun hclose => ?_
      · rw [← hread.eq_of_nil] at hop
        rw [(step?_opened (hop x hx)).2]
        exact hno x hx
      · -- neither stage is that of a length
        cases he hclose with
        | unexpected expected _ => exact .unexpected expected (not_overflows_of_ne (by simp))
        | oversizedLength digits hover _ => exact absurd hover (not_overflows_of_ne (by simp))
    · exact .intro hread ((hopened hread hne).trans hj) hno he

/-- What stands between the braces of an expression. -/
theorem body_follows (c : Cursor) : Follows .opened c Closing c.operator?.2.variableList := by
  have hlist := variableList_follows c.operator?.2
  unfold operator? at hlist ⊢
  -- an operator is read on its own, and anything else belongs to the first name
  split
  · next x rest hrest =>
    simp only [hrest] at hlist
    split
    · next o ho =>
      simp only [ho] at hlist
      have hread : Reads c [x] ⟨c.column + 1, rest⟩ := ⟨hrest, rfl⟩
      refine Follows.after hread (j := .segment) ?_ hlist
      simp [Inside.run?_cons, Inside.step?, ho, Inside.run?_nil]
    · next ho =>
      simp only [ho] at hlist
      refine follows_opened (fun y hy => ?_) hlist
      rw [hrest] at hy
      cases hy
      exact ho
  · next hrest =>
    simp only [hrest] at hlist
    refine follows_opened (fun y hy => ?_) hlist
    rw [hrest] at hy
    cases hy

/-! ## Outcomes of the rules for parts -/

/-- How parsing fails from a place outside of expressions: it has read a text which leads to a
stage that the next character does not fit, or an expression begins there and is never closed. -/
inductive Halts (c : Cursor) (e : ParseError) : Prop
  | stuck {run : Text} {c' : Cursor} {s : Stage} {x : CodePoint} (h : Reads c run c')
      (hrun : Stage.outside.run? run = some s) (hx : x ∈ c'.rest.head?)
      (hno : s.step? x = none) (he : Blames s c' e)
  | unclosed {run rest : Text} {c' : Cursor} (h : Reads c run c')
      (hrun : Stage.outside.run? run = some .outside) (hopen : c'.rest = .scalar '{' :: rest)
      (hclose : .scalar '}' ∉ rest) (he : e = .unclosed c'.column)

/-- What stops behind parts that were read stops from the place before them. -/
theorem Halts.of_reads (h : Reads c run c') (hrun : Stage.outside.run? run = some .outside)
    (hhalts : Halts c' e) : Halts c e := by
  cases hhalts with
  | stuck h' hrun' hx hno he =>
    exact .stuck (h.trans h') ((Stage.run?_append hrun _).trans hrun') hx hno he
  | unclosed h' hrun' hopen hclose he =>
    exact .unclosed (h.trans h') ((Stage.run?_append hrun _).trans hrun') hopen hclose he

/-- The outcome of a rule that begins outside of expressions: it has read a text that leads out
of all expressions, or it fails. -/
def Passes {α : Type} (c : Cursor) : Except ParseError (α × Cursor) → Prop
  | .ok (_, c') => ∃ run, Reads c run c' ∧ Stage.outside.run? run = some .outside
  | .error e => Halts c e

/-- What is known of a rule for parts that has succeeded. -/
theorem Passes.ok {α : Type} {r : Except ParseError (α × Cursor)} {a : α} (h : Passes c r)
    (hr : r = .ok (a, c')) : ∃ run, Reads c run c' ∧ Stage.outside.run? run = some .outside := by
  rw [hr] at h
  exact h

/-- What is known of a rule for parts that has failed. -/
theorem Passes.error {α : Type} {r : Except ParseError (α × Cursor)} (h : Passes c r)
    (hr : r = .error e) : Halts c e := by
  rw [hr] at h
  exact h

/-- Behind an opening brace a text leads into an expression. -/
theorem run?_brace (h : Inside.opened.run? run = some j) :
    Stage.outside.run? (.scalar '{' :: run) = some (.inside j) := by
  rw [Stage.run?_cons]
  exact Stage.run?_inside h

/-- What fails in an expression that is closed somewhere fails at a character. -/
theorem Jams.halts {c₁ : Cursor} (hopen : c.skip? '{' = some c₁) (hclose : .scalar '}' ∈ c₁.rest)
    (h : Jams .opened c₁ e) : Halts c e := by
  obtain @⟨run, c', j, h, hrun, hno, he⟩ := h
  -- the closing brace has not been read
  rw [h.rest, List.mem_append] at hclose
  have hmem := hclose.resolve_left (Inside.brace_notMem_of_run? hrun)
  obtain ⟨x, rest, hrest⟩ := List.exists_cons_of_ne_nil (List.ne_nil_of_mem hmem)
  have hx : x ∈ c'.rest.head? := by
    rw [hrest]
    rfl
  exact .stuck ((Reads.of_skip? hopen).trans h) (run?_brace hrun) hx (hno x hx) (he hmem)

/-- An expression leads in and out again. -/
theorem expression?_passes (c : Cursor) : Passes c c.expression? := by
  cases hopen : c.skip? '{' with
  | none =>
    unfold expression?
    rw [hopen]
    exact ⟨[], .refl c, rfl⟩
  | some c₁ =>
    -- without a closing brace the rule stops at the opening one, before anything else is read
    by_cases hclose : .scalar '}' ∈ c₁.rest
    · rw [expression?_of_skip? c c₁ hopen hclose]
      -- the expression is closed somewhere, so that failures are at characters
      cases hvs : c₁.operator?.2.variableList with
      | error e => exact ((body_follows c₁).error hvs).halts hopen hclose
      | ok p =>
        obtain ⟨vs, c₂⟩ := p
        obtain ⟨run, j, hread, hrun, hcloses, hnext, hover⟩ := (body_follows c₁).ok hvs
        cases hskip : c₂.skip? '}' with
        | some c₃ =>
          simp only [skip, hskip, bind, Except.bind, pure, Except.pure]
          refine ⟨_, ((Reads.of_skip? hopen).trans hread).trans (.of_skip? hskip), ?_⟩
          have hout : (Stage.inside j).run? [.scalar '}'] = some .outside := by
            simp [Stage.run?_cons, Stage.step?, hcloses, Stage.run?_nil]
          exact (Stage.run?_append (run?_brace hrun) _).trans hout
        | none =>
          -- the expression could be closed, and something else comes next
          simp only [skip, hskip, bind, Except.bind]
          have hjams : Jams .opened c₁ (c₂.unexpected (.word [.scalar '}'])) := by
            refine .intro hread hrun (fun x hx => ?_) fun _ => .unexpected _ hover
            apply Stage.step?_inside_eq_none (hnext x hx)
            rintro rfl
            exact absurd hx (head?_ne_of_skip? hskip)
          exact hjams.halts hopen hclose
    · unfold expression?
      rw [hopen]
      simp only [if_neg hclose]
      exact .unclosed (.refl c) rfl (skip?_rest hopen) hclose rfl

/-- Where no expression is read, none begins. -/
theorem skip?_of_expression? (h : c.expression? = .ok (none, c')) : c.skip? '{' = none := by
  cases hopen : c.skip? '{' with
  | none => rfl
  | some c₁ =>
    exfalso
    by_cases hclose : .scalar '}' ∈ c₁.rest
    · rw [expression?_of_skip? c c₁ hopen hclose] at h
      obtain ⟨_, -, h⟩ := bind_eq_ok.mp h
      obtain ⟨_, -, h⟩ := bind_eq_ok.mp h
      cases h
    · unfold expression? at h
      rw [hopen] at h
      simp only [if_neg hclose] at h
      cases h

/-! ## Parts and templates -/

/-- Where text is left, a part leads out of all expressions. -/
theorem part_passes (c : Cursor) (hne : c.rest ≠ []) : Passes c c.part := by
  have hexpr := expression?_passes c
  unfold part
  -- an expression is tried first, and a literal only where none begins
  cases he : c.expression? with
  | error e => exact hexpr.error he
  | ok p =>
    obtain ⟨e?, c₁⟩ := p
    cases e? with
    | some e => exact hexpr.ok he
    | none =>
      obtain rfl : c₁ = c := by
        rcases expression?_rest he with ⟨-, hc⟩ | ⟨hsome, -⟩
        · exact hc
        · cases hsome
      simp only [bind, Except.bind]
      cases hl : c₁.literal? with
      | some q =>
        obtain ⟨l, c₂⟩ := q
        exact ⟨l.text, literal?_reads hl, Stage.run?_literal _ l.allowed⟩
      | none =>
        -- neither an expression nor a literal begins here
        obtain ⟨x, rest, hrest⟩ := List.exists_cons_of_ne_nil hne
        have hx : x ∈ c₁.rest.head? := by
          rw [hrest]
          rfl
        have hbrace : x ≠ .scalar '{' := by
          rintro rfl
          exact head?_ne_of_skip? (skip?_of_expression? he) hx
        have hlit : x.isLiteral = false := by
          simp only [literal?] at hl
          split at hl
          · next hnil => exact Text.stops_of_takeWhile hnil x hx
          · cases hl
        refine .stuck (.refl c₁) rfl hx ?_ (.unexpected _ (not_overflows_of_ne (by simp)))
        simp [Stage.step?, hlit, hbrace]

/-- Parts lead out of all expressions one after the other. -/
theorem parts_passes (c : Cursor) : Passes c c.parts := by
  -- part by part, and what was read leads out of all expressions
  fun_induction parts c with
  | case1 c hend => exact ⟨[], .refl c, rfl⟩
  | case2 c hend e he => exact (part_passes c hend).error he
  | case3 c hend p c₁ hp e he ih =>
    obtain ⟨run, hread, hrun⟩ := (part_passes c hend).ok hp
    exact Halts.of_reads hread hrun (ih.error he)
  | case4 c hend p c₁ hp ps c₂ hps ih =>
    obtain ⟨run, hread, hrun⟩ := (part_passes c hend).ok hp
    obtain ⟨more, hread', hmore⟩ := ih.ok hps
    exact ⟨run ++ more, hread.trans hread', (Stage.run?_append hrun more).trans hmore⟩

end Cursor

namespace Template

/-- A text that cannot be parsed leads to a place where it stops being a template. -/
theorem halts_of_parse_eq_error {t : Text} {e : ParseError} (h : parse t = .error e) :
    Cursor.Halts (.ofText t 0) e := by
  have hparts := Cursor.parts_passes (.ofText t 0)
  unfold parse Cursor.template at h
  cases hrun : (Cursor.ofText t 0).parts with
  | error e' =>
    simp only [hrun, bind, Except.bind, Except.error.injEq] at h
    subst h
    exact hparts.error hrun
  | ok p =>
    simp only [hrun, bind, Except.bind, pure, Except.pure] at h
    cases h

/-- The texts that parse are those that lead out of all expressions. -/
theorem exists_parse_eq_ok_iff (t : Text) :
    (∃ T, parse t = .ok T) ↔ Stage.outside.run? t = some .outside := by
  constructor
  · intro ⟨T, h⟩
    unfold parse Cursor.template at h
    obtain ⟨r, hrun, -⟩ := bind_eq_ok.mp h
    obtain ⟨⟨ps, c⟩, hparts, -⟩ := bind_eq_ok.mp hrun
    obtain ⟨run, hread, hout⟩ := (Cursor.parts_passes _).ok hparts
    -- nothing is left behind the parts
    have hrest : t = run := by
      have h := hread.rest
      rwa [Cursor.parts_rest hparts, List.append_nil] at h
    rwa [hrest]
  · intro hrun
    cases hparse : parse t with
    | ok T => exact ⟨T, rfl⟩
    | error e =>
      -- a place where the parser halts is one where the run does not go on
      exfalso
      cases halts_of_parse_eq_error hparse with
      | stuck h hs hx hno _ =>
        obtain ⟨rest, hrest⟩ := List.head?_eq_some_iff.mp hx
        have ht : t = _ := h.rest
        rw [ht, hrest, Stage.run?_eq_none hs hno] at hrun
        cases hrun
      | unclosed h hs hopen hclose _ =>
        have ht : t = _ := h.rest
        rw [ht, hopen, Stage.run?_append hs, Stage.run?_cons] at hrun
        exact Stage.run?_inside_ne_outside _ hclose .opened hrun

end Template

/-! ## Columns of errors -/

/-- The text can be completed to one that parses. -/
def Text.IsViable (t : Text) : Prop := ∃ u T, Value.parse (.text (t ++ u)) = .ok T

/-- The texts that can be completed are those that get to a stage. -/
theorem Text.isViable_iff (t : Text) : t.IsViable ↔ ∃ s, Stage.outside.run? t = some s := by
  simp only [IsViable, Value.parse_text_eq_ok, Template.exists_parse_eq_ok_iff]
  constructor
  · intro ⟨u, hu⟩
    obtain ⟨s, hs, -⟩ := Stage.exists_run?_of_append hu
    exact ⟨s, hs⟩
  · intro ⟨s, hs⟩
    exact Stage.exists_run?_eq_outside hs

/-- Where a text is cut at one of its characters. -/
theorem Text.cut_of_eq_append {t run rest : Text} {x : CodePoint} (h : t = run ++ x :: rest) :
    t[run.length]? = some x ∧ t.take run.length = run ∧ t.drop (run.length + 1) = rest := by
  subst h
  simp

/-- The column of a place is the length of the text in front of it. -/
theorem Cursor.column_of_reads {t run : Text} {c : Cursor} (h : Reads (.ofText t 0) run c) :
    c.column = run.length := by
  rw [h.column]
  exact Nat.zero_add _

/-- A syntax error is placed at a character of the text.  Either an expression that is never
closed opens there, behind a template, or the text in front of the place is the longest part of
it that can be completed. -/
theorem Value.parse_error_place (t : Text) (f : Fault) (h : Value.parse (.text t) = .error f)
    (hkind : f.kind = .templateSyntax) :
    ∃ e p x, f = .parse e ∧ e.column? = some p ∧ e.character? = some x ∧ t[p]? = some x ∧
      ((e = .unclosed p ∧ x = .scalar '{' ∧ .scalar '}' ∉ t.drop (p + 1) ∧
          ∃ T, Value.parse (.text (t.take p)) = .ok T) ∨
        (Text.IsViable (t.take p) ∧ ¬ Text.IsViable (t.take (p + 1)))) := by
  have herror : (Template.parse t).mapError Fault.parse = .error f := h
  obtain ⟨e, he, rfl⟩ := mapError_eq_error.mp herror
  -- the run has stopped within the text, or at a brace that is never closed
  cases Template.halts_of_parse_eq_error he with
  | @stuck run c' s x hread hrun hx hno hblames =>
    obtain ⟨rest, hrest⟩ := List.head?_eq_some_iff.mp hx
    have ht : t = run ++ x :: rest := hread.rest.trans (by rw [hrest])
    obtain ⟨hget, htake, -⟩ := Text.cut_of_eq_append ht
    have hcolumn := Cursor.column_of_reads hread
    cases hblames with
    | unexpected expected =>
      refine ⟨_, run.length, x, rfl, congrArg some hcolumn, hx, hget, .inr ?_⟩
      rw [List.take_add_one, hget, htake, Text.isViable_iff, Text.isViable_iff,
        Option.toList_some, Stage.run?_eq_none hrun hno]
      exact ⟨⟨s, hrun⟩, nofun⟩
    | oversizedLength digits => cases hkind
  | @unclosed run rest c' hread hrun hopen hclose hunclosed =>
    subst hunclosed
    -- the brace is in the text, and in front of it stands what was parsed
    have ht : t = run ++ .scalar '{' :: rest := hread.rest.trans (by rw [hopen])
    obtain ⟨hget, htake, hdrop⟩ := Text.cut_of_eq_append ht
    have hcolumn := Cursor.column_of_reads hread
    refine ⟨_, run.length, .scalar '{', rfl, congrArg some hcolumn, rfl, hget, .inl ?_⟩
    obtain ⟨T, hT⟩ := (Template.exists_parse_eq_ok_iff run).mpr hrun
    rw [hcolumn, hdrop, htake]
    exact ⟨rfl, rfl, hclose, T, Value.parse_text_eq_ok.mpr hT⟩

/-- A zero does not begin a prefix length, although the expression is closed. -/
theorem Value.parse_error_place_zero :
    ∃ f, Value.parse (.text "a{x:10}{y:0}".toText) = .error f ∧ f.kind = .templateSyntax ∧
      Text.IsViable "a{x:10}\x7by:".toText ∧ ¬ Text.IsViable "a{x:10}\x7by:0".toText := by
  have hparse : Value.parse (.text "a{x:10}{y:0}".toText) =
      .error (.parse (.unexpected 10 (some (.scalar '0')) .maxLength)) := by decide +kernel
  obtain ⟨e', p, x, he, hp, -, -, hplace⟩ := Value.parse_error_place _ _ hparse rfl
  cases he
  cases hp
  -- the error is no unclosed brace
  rcases hplace with ⟨hunclosed, -⟩ | hviable
  · cases hunclosed
  · exact ⟨_, hparse, rfl, hviable⟩

end UriTemplate
