import UriTemplate.Proofs.Grammar

/-!
# Stages of a template

A template can be read one character at a time.  Which characters may come next depends on the
stage that the text so far has got to (`Stage`), and on nothing else: there are seven of them,
one of which counts the digits of a prefix length.  A text that leads from `Stage.outside` back
to it is a template.

No stage is a dead end (`exists_run?_eq_outside`).  So a text that gets to some stage can always
be completed, and one that gets to none cannot be completed at all.
-/

namespace UriTemplate

/-- The stages within an expression. -/
inductive Inside where
  /-- Behind the opening brace. -/
  | opened
  /-- Behind an operator, a comma or a dot, where a segment of a name has to begin. -/
  | segment
  /-- In a segment of a name. -/
  | name
  /-- Behind a colon. -/
  | colon
  /-- In a prefix length, behind this many digits. -/
  | length (digits : Nat)
  /-- Behind an asterisk. -/
  | star
deriving DecidableEq

/-- The stages of a template. -/
inductive Stage where
  /-- In front of a part, or in a literal. -/
  | outside
  | inside (i : Inside)
deriving DecidableEq

namespace Inside

/-- One character further within the expression. -/
def step? : Inside → CodePoint → Option Inside
  | opened, x =>
    if (Operator.ofSymbol? [x]).isSome then some segment
    else if x.isVarchar then some name else none
  | segment, x => if x.isVarchar then some name else none
  | name, x =>
    if x.isVarchar then some name
    else if x = .scalar '.' ∨ x = .scalar ',' then some segment
    else if x = .scalar ':' then some colon
    else if x = .scalar '*' then some star else none
  | colon, x => if x.isDigit = true ∧ x ≠ .scalar '0' then some (length 1) else none
  | length n, x =>
    if x.isDigit then if n < Text.digitLimit then some (length (n + 1)) else none
    else if x = .scalar ',' then some segment else none
  | star, x => if x = .scalar ',' then some segment else none

/-- Whether the expression may be closed. -/
def closes : Inside → Bool
  | name => true
  | length _ => true
  | star => true
  | _ => false

/-- The stage behind a text within the expression. -/
def run? (i : Inside) (t : Text) : Option Inside := t.foldlM step? i

end Inside

namespace Stage

/-- One character further. -/
def step? : Stage → CodePoint → Option Stage
  | outside, x =>
    if x.isLiteral then some outside
    else if x = .scalar '{' then some (inside .opened) else none
  | inside i, x =>
    if x = .scalar '}' then if i.closes then some outside else none
    else (i.step? x).map inside

/-- The stage behind a text. -/
def run? (s : Stage) (t : Text) : Option Stage := t.foldlM step? s

end Stage

/-! ## Steps within an expression -/

namespace Inside

variable {i j : Inside} {x : CodePoint} {s : Text}

/-- A character of names begins a segment, and goes on with it. -/
theorem step?_eq_name (h : x.isVarchar = true) : segment.step? x = some name ∧
    name.step? x = some name := by
  simp [step?, h]

/-- Wherever the expression may be closed, a comma begins another variable. -/
theorem step?_comma (h : i.closes = true) : i.step? (.scalar ',') = some segment := by
  cases i with
  | opened => cases h
  | segment => cases h
  | name => rfl
  | colon => cases h
  | length n => rfl
  | star => rfl

/-- The closing brace is no step within the expression. -/
theorem step?_brace (i : Inside) : i.step? (.scalar '}') = none := by
  cases i <;> rfl

/-- No text leads nowhere else. -/
theorem run?_nil (i : Inside) : i.run? [] = some i := rfl

/-- A text is run through from its first character on. -/
theorem run?_cons (i : Inside) (x : CodePoint) (t : Text) :
    i.run? (x :: t) = (i.step? x).bind (·.run? t) := rfl

/-- So a comma leads to the next variable. -/
theorem run?_comma (h : i.closes = true) : i.run? [.scalar ','] = some segment := by
  rw [run?_cons, step?_comma h]
  rfl

/-- A text is run through piece by piece. -/
theorem run?_append (h : i.run? s = some j) (t : Text) : i.run? (s ++ t) = j.run? t := by
  unfold run? at h ⊢
  rw [List.foldlM_append, h]
  rfl

/-- Name characters stay in a segment. -/
theorem run?_name (run : Text) (h : ∀ x ∈ run, x.isVarchar = true) :
    name.run? run = some name := by
  induction run with
  | nil => rfl
  | cons x run ih =>
    rw [List.forall_mem_cons] at h
    rw [run?_cons, (step?_eq_name h.1).2]
    exact ih h.2

/-- Name characters are a segment. -/
theorem run?_segment {run : Text} (hne : run ≠ []) (h : ∀ x ∈ run, x.isVarchar = true) :
    segment.run? run = some name := by
  obtain ⟨x, run, rfl⟩ := List.exists_cons_of_ne_nil hne
  rw [List.forall_mem_cons] at h
  rw [run?_cons, (step?_eq_name h.1).1]
  exact run?_name run h.2

/-- Digits stay in a length as long as there are not too many. -/
theorem run?_length (ds : Text) (h : ∀ x ∈ ds, x.isDigit = true) {n : Nat}
    (hn : n + ds.length ≤ Text.digitLimit) :
    (length n).run? ds = some (length (n + ds.length)) := by
  induction ds generalizing n with
  | nil => rfl
  | cons x ds ih =>
    rw [List.forall_mem_cons] at h
    rw [List.length_cons] at hn ⊢
    -- one more digit fits, since the count is still below the limit
    have hstep : (length n).step? x = some (length (n + 1)) := by
      simp only [step?, h.1, if_true]
      rw [if_pos (by omega)]
    rw [run?_cons, hstep, Option.bind_some, ih h.2 (by omega)]
    congr 2
    omega

/-- A prefix length that is not too long is one. -/
theorem run?_colon {ds : Text} (h : Grammar.IsLength ds) (hn : ds.length ≤ Text.digitLimit) :
    colon.run? ds = some (length ds.length) := by
  -- the first digit is not a zero, and leads to a length of one digit
  obtain ⟨d, ds, hd, hd0, hds⟩ := h
  rw [List.length_cons] at hn
  have hstep : colon.step? d = some (length 1) := by
    simp [step?, hd, hd0]
  rw [run?_cons, hstep, Option.bind_some, run?_length ds hds (by omega), List.length_cons]
  congr 2
  omega

/-- A text within an expression does not close it. -/
theorem brace_notMem_of_run? (h : i.run? s = some j) : .scalar '}' ∉ s := by
  induction s generalizing i with
  | nil => exact List.not_mem_nil
  | cons x s ih =>
    rw [run?_cons] at h
    obtain ⟨k, hk, hs⟩ := Option.bind_eq_some_iff.mp h
    intro hmem
    -- the brace fits nowhere within an expression, neither here nor further behind
    rcases List.mem_cons.mp hmem with hx | hmem
    · rw [← hx, step?_brace] at hk
      cases hk
    · exact ih hs hmem

end Inside

/-! ## Steps of a template -/

namespace Stage

variable {s s' : Stage} {i j : Inside} {t u : Text} {x : CodePoint}

/-- No text leads nowhere else. -/
theorem run?_nil (s : Stage) : s.run? [] = some s := rfl

/-- A text is run through from its first character on. -/
theorem run?_cons (s : Stage) (x : CodePoint) (t : Text) :
    s.run? (x :: t) = (s.step? x).bind (·.run? t) := rfl

/-- A text is run through piece by piece. -/
theorem run?_append (h : s.run? t = some s') (u : Text) : s.run? (t ++ u) = s'.run? u := by
  unfold run? at h ⊢
  rw [List.foldlM_append, h]
  rfl

/-- A text that gets to a stage leads there from any point of it on. -/
theorem exists_run?_of_append (h : s.run? (t ++ u) = some s') :
    ∃ s₁, s.run? t = some s₁ ∧ s₁.run? u = some s' := by
  unfold run? at h ⊢
  rw [List.foldlM_append] at h
  exact Option.bind_eq_some_iff.mp h

/-- Behind a stage where a character does not fit, no text with the character gets anywhere. -/
theorem run?_eq_none (h : s.run? t = some s') (hx : s'.step? x = none) (u : Text) :
    s.run? (t ++ x :: u) = none := by
  rw [run?_append h, run?_cons, hx]
  rfl

/-- What does not fit within an expression does not fit the template. -/
theorem step?_inside_eq_none (hno : i.step? x = none)
    (hclose : x = .scalar '}' → i.closes = false) : (inside i).step? x = none := by
  show (if x = .scalar '}' then if i.closes then some outside else none
    else (i.step? x).map inside) = none
  by_cases hx : x = .scalar '}'
  · rw [if_pos hx, if_neg (by simp [hclose hx])]
  · rw [if_neg hx, hno]
    rfl

/-- A text within an expression is run through as a text of the template. -/
theorem run?_inside (h : i.run? t = some j) : (inside i).run? t = some (inside j) := by
  induction t generalizing i with
  | nil =>
    cases h
    rfl
  | cons x t ih =>
    rw [Inside.run?_cons] at h
    obtain ⟨k, hk, ht⟩ := Option.bind_eq_some_iff.mp h
    -- a character that fits within the expression is not the one that closes it
    have hx : x ≠ .scalar '}' := by
      rintro rfl
      rw [Inside.step?_brace] at hk
      cases hk
    have hstep : (inside i).step? x = some (inside k) := by
      simp only [step?, if_neg hx, hk, Option.map_some]
    rw [run?_cons, hstep]
    exact ih ht

/-- Literal characters stay outside of expressions. -/
theorem run?_literal (run : Text) (h : ∀ x ∈ run, x.isLiteral = true) :
    outside.run? run = some outside := by
  induction run with
  | nil => rfl
  | cons x run ih =>
    rw [List.forall_mem_cons] at h
    have hstep : outside.step? x = some outside := by
      simp only [step?, if_pos h.1]
    rw [run?_cons, hstep]
    exact ih h.2

/-- Without a closing brace a text does not get out of an expression. -/
theorem run?_inside_ne_outside (t : Text) (h : .scalar '}' ∉ t) (i : Inside) :
    (inside i).run? t ≠ some outside := by
  induction t generalizing i with
  | nil => simp [run?_nil]
  | cons x t ih =>
    rw [List.mem_cons, not_or] at h
    rw [run?_cons]
    simp only [step?, if_neg (Ne.symm h.1)]
    -- each character leads nowhere or stays inside, and the rest does the same by induction
    cases i.step? x with
    | none => simp
    | some k => exact ih h.2 k

/-! ## Ways to complete a text -/

/-- A short way out of a stage. -/
def completion : Stage → Text
  | outside => []
  | inside .opened => "x\x7d".toText
  | inside .segment => "x\x7d".toText
  | inside .name => "\x7d".toText
  | inside .colon => "1\x7d".toText
  | inside (.length _) => "\x7d".toText
  | inside .star => "\x7d".toText

/-- The short way leads out of every stage. -/
theorem run?_completion (s : Stage) : s.run? s.completion = some outside := by
  cases s with
  | outside => rfl
  | inside i => cases i <;> rfl

/-- A text that gets to a stage can be completed. -/
theorem exists_run?_eq_outside (h : s.run? t = some s') :
    ∃ u, s.run? (t ++ u) = some outside := by
  refine ⟨s'.completion, ?_⟩
  -- from the stage that the text gets to, its short way leads out
  rw [run?_append h]
  exact s'.run?_completion

end Stage

end UriTemplate
