import UriTemplate.Proofs.ExpansionSteps
import UriTemplate.Proofs.Grammar
import Mathlib.Data.List.Chain

/-!
# Merging adjacent literals

A template can be built with literals next to each other.  Its canonical text does not show
where one of them ends, so the text stands for the template in which every run of adjacent
literals is one literal (`Template.merged`, `merged_run`).

Merging changes neither the canonical text (`format_merged`) nor any expansion
(`expand_merged`), and it leaves a template alone just if no two literals are adjacent
(`merged_eq_self_iff`, `merged_beq_self_iff`).
-/

namespace UriTemplate

/-- A part is a literal. -/
def Part.isLiteral : Part → Bool
  | literal _ => true
  | expression _ => false

/-- One literal after the other, as a single one. -/
def Literal.append (l l' : Literal) : Literal :=
  ⟨l.text ++ l'.text, by simp [l.nonempty], by
    intro x hx
    rcases List.mem_append.mp hx with hx | hx
    · exact l.allowed x hx
    · exact l'.allowed x hx⟩

/-- Puts a part in front of others.  A literal joins the literal that it meets. -/
def Part.mergeInto : Part → List Part → List Part
  | literal l, literal l' :: ps => literal (l.append l') :: ps
  | p, ps => p :: ps

/-- The template with every run of adjacent literals as one literal. -/
def Template.merged (t : Template) : Template := ⟨t.parts.foldr Part.mergeInto []⟩

/-- No two literals are adjacent. -/
def Template.IsMerged (t : Template) : Prop :=
  t.parts.IsChain fun p q => ¬ (p.isLiteral = true ∧ q.isLiteral = true)

namespace Part

/-- A part that is no literal in front of a literal is just put in front. -/
theorem mergeInto_of_not (p : Part) (ps : List Part)
    (h : ∀ q ∈ ps.head?, ¬ (p.isLiteral = true ∧ q.isLiteral = true)) :
    p.mergeInto ps = p :: ps := by
  cases p with
  | expression e => rfl
  | literal l =>
    cases ps with
    | nil => rfl
    | cons q ps =>
      cases q with
      | expression e => rfl
      | literal l' => exact absurd ⟨rfl, rfl⟩ (h (.literal l') rfl)

/-- The first part stays a literal, or stays none. -/
theorem isLiteral_head_mergeInto (p : Part) (ps : List Part) :
    ∀ q ∈ (p.mergeInto ps).head?, q.isLiteral = p.isLiteral := by
  intro q hq
  unfold mergeInto at hq
  split at hq
  · cases hq
    rfl
  · cases hq
    rfl

/-- A part that is merged into a row without adjacent literals leaves no adjacent literals there.
-/
theorem isChain_mergeInto (p : Part) (ps : List Part)
    (h : ps.IsChain fun p q => ¬ (p.isLiteral = true ∧ q.isLiteral = true)) :
    (p.mergeInto ps).IsChain fun p q => ¬ (p.isLiteral = true ∧ q.isLiteral = true) := by
  by_cases hhead : ∀ q ∈ ps.head?, ¬ (p.isLiteral = true ∧ q.isLiteral = true)
  · rw [mergeInto_of_not p ps hhead]
    exact List.isChain_cons.mpr ⟨hhead, h⟩
  · -- two literals meet, and the joined one stands where the second one stood
    obtain ⟨q, hq, hp, hlit⟩ : ∃ q ∈ ps.head?, p.isLiteral = true ∧ q.isLiteral = true := by
      simpa using hhead
    obtain ⟨ps, rfl⟩ := List.head?_eq_some_iff.mp hq
    cases p with
    | expression e => cases hp
    | literal l =>
      cases q with
      | expression e => cases hlit
      | literal l' =>
        rw [List.isChain_cons] at h
        exact List.isChain_cons.mpr h

end Part

namespace Template

/-- Merging leaves no adjacent literals. -/
theorem isMerged_merged (t : Template) : t.merged.IsMerged := by
  obtain ⟨ps⟩ := t
  unfold merged IsMerged
  -- merging is a fold from the right, which merges the others before the first part
  induction ps with
  | nil => exact .nil
  | cons p ps ih => exact Part.isChain_mergeInto p _ ih

/-- A run of literals that no literal follows is merged into the literal of their joined
texts. -/
theorem merged_run (l : Literal) (ls : List Literal) (ps : List Part)
    (h : ∀ q ∈ ps.head?, q.isLiteral = false) :
    ∃ l' : Literal, l'.text = l.text ++ ls.flatMap Literal.text ∧
      merged ⟨.literal l :: ls.map .literal ++ ps⟩ = ⟨.literal l' :: (merged ⟨ps⟩).parts⟩ := by
  induction ls generalizing l with
  | nil =>
    refine ⟨l, by simp, ?_⟩
    simp only [merged, List.map_nil, List.singleton_append, List.foldr_cons]
    rw [Part.mergeInto_of_not]
    intro q hq
    -- what follows the run begins with the part that it began with, which is no literal
    rintro ⟨-, hlit⟩
    cases ps with
    | nil => cases hq
    | cons p ps =>
      rw [Part.isLiteral_head_mergeInto p _ q hq, h p rfl] at hlit
      cases hlit
  | cons m ls ih =>
    -- the others become one literal, which the first one joins
    obtain ⟨l', htext, hmerged⟩ := ih m
    refine ⟨l.append l', ?_, ?_⟩
    · simp [Literal.append, htext]
    · simp only [merged, Template.mk.injEq] at hmerged ⊢
      rw [List.map_cons, List.cons_append, List.foldr_cons, hmerged]
      rfl

/-- A template without adjacent literals is merged already. -/
theorem merged_of_isMerged (t : Template) (h : t.IsMerged) : t.merged = t := by
  obtain ⟨ps⟩ := t
  unfold IsMerged at h
  unfold merged
  induction ps with
  | nil => rfl
  | cons p ps ih =>
    -- the others are merged, so that the first part is put in front of what it stood before
    rw [List.isChain_cons] at h
    have htail := ih h.2
    simp only [Template.mk.injEq] at htail ⊢
    rw [List.foldr_cons, htail]
    exact Part.mergeInto_of_not p ps h.1

/-! ## What merging keeps -/

/-- A joined literal is written as the two that it comes from. -/
theorem format_mergeInto (p : Part) (ps : List Part) :
    (p.mergeInto ps).flatMap Part.format = p.format ++ ps.flatMap Part.format := by
  unfold Part.mergeInto
  split
  · simp [Part.format, Literal.append]
  · rfl

/-- Merging keeps the canonical text. -/
theorem format_merged (t : Template) : t.merged.format = t.format := by
  obtain ⟨ps⟩ := t
  unfold merged format
  induction ps with
  | nil => rfl
  | cons p ps ih => rw [List.foldr_cons, format_mergeInto, List.flatMap_cons, ih]

/-- Merging changes literals alone. -/
theorem expressions_merged (t : Template) : t.merged.expressions = t.expressions := by
  obtain ⟨ps⟩ := t
  unfold merged
  induction ps with
  | nil => rfl
  | cons p ps ih =>
    rw [List.foldr_cons]
    cases p with
    | expression e =>
      show e :: expressions ⟨_⟩ = e :: expressions ⟨ps⟩
      rw [ih]
    | literal l =>
      -- what the literal joins, if anything, is no expression either
      rw [expressions_literal, ← ih]
      unfold Part.mergeInto
      split
      · next l₁ l₂ qs h₁ h₂ => rw [h₂, expressions_literal, expressions_literal]
      · rw [expressions_literal]

/-- It is expanded to the texts of the two as well. -/
theorem expand_mergeInto {β : Type} (look : Text → Binding β) (p : Part) (ps : List Part) :
    expand look ⟨p.mergeInto ps⟩ = expand look ⟨p :: ps⟩ := by
  unfold Part.mergeInto
  split
  · next l l' ps =>
    simp only [expand_cons, Part.expand, Literal.append]
    cases expand look ⟨ps⟩ with
    | error e => rfl
    | ok t => simp [bind, Except.bind, pure, Except.pure]
  · rfl

/-- A template and its merged form expand to the same text, or fail for the same reason. -/
theorem expand_merged {β : Type} (look : Text → Binding β) (t : Template) :
    t.merged.expand look = t.expand look := by
  obtain ⟨ps⟩ := t
  unfold merged
  induction ps with
  | nil => rfl
  | cons p ps ih => rw [List.foldr_cons, expand_mergeInto, expand_cons, ih, expand_cons]

/-! ## Equality with the merged form -/

/-- A part that is put in front, or joins the first one, adds at most one to the number of parts.
-/
theorem length_mergeInto_le (p : Part) (ps : List Part) :
    (p.mergeInto ps).length ≤ ps.length + 1 := by
  unfold Part.mergeInto
  split
  · simp
  · simp

/-- Merging makes no template longer. -/
theorem length_merged_le (ps : List Part) :
    (ps.foldr Part.mergeInto []).length ≤ ps.length := by
  induction ps with
  | nil => exact Nat.le_refl _
  | cons p ps ih =>
    have hle := length_mergeInto_le p (ps.foldr Part.mergeInto [])
    rw [List.foldr_cons, List.length_cons]
    omega

/-- Merging that makes no template shorter finds no adjacent literals. -/
theorem isMerged_of_length (t : Template) (h : t.merged.parts.length = t.parts.length) :
    t.IsMerged := by
  obtain ⟨ps⟩ := t
  unfold merged at h
  unfold IsMerged
  induction ps with
  | nil => exact .nil
  | cons p ps ih =>
    simp only [List.foldr_cons, List.length_cons] at h ih
    -- neither the rest nor the first part in front of it gets shorter
    have hle := length_mergeInto_le p (ps.foldr Part.mergeInto [])
    have hle' := length_merged_le ps
    have htail := ih (by omega)
    have heq : ps.foldr Part.mergeInto [] = ps :=
      congrArg Template.parts (merged_of_isMerged ⟨ps⟩ htail)
    rw [heq] at h
    refine List.isChain_cons.mpr ⟨fun q hq => ?_, htail⟩
    rintro ⟨hp, hlit⟩
    obtain ⟨qs, rfl⟩ := List.head?_eq_some_iff.mp hq
    cases p with
    | expression e => cases hp
    | literal l =>
      cases q with
      | expression e => cases hlit
      | literal l' =>
        simp only [Part.mergeInto, List.length_cons] at h
        omega

/-- Merging leaves a template alone just if no two literals are adjacent. -/
theorem merged_eq_self_iff (t : Template) : t.merged = t ↔ t.IsMerged := by
  constructor
  · intro h
    apply isMerged_of_length
    rw [h]
  · exact merged_of_isMerged t

end Template

/-! Templates are compared up to the parameters of their operators.  Equal ones have equally
many parts, so that the same holds for this equality. -/

instance : ReflBEq Operator := ⟨Operator.beq_iff.mpr rfl⟩

instance : ReflBEq Expression where
  rfl := by
    intro e
    show (e.specs == e.specs && e.operator == e.operator) = true
    rw [beq_self_eq_true, Bool.true_and]
    exact beq_self_eq_true _

instance : ReflBEq Part where
  rfl := by
    intro p
    cases p with
    | literal l => exact beq_self_eq_true l
    | expression e => exact beq_self_eq_true e

instance : ReflBEq Template where
  rfl := by
    intro t
    exact beq_self_eq_true t.parts

/-- Merging leaves a template equal to what it was just if no two literals are adjacent. -/
theorem Template.merged_beq_self_iff (t : Template) : (t.merged == t) = true ↔ t.IsMerged := by
  constructor
  · intro h
    have hparts : (t.merged.parts == t.parts) = true := h
    -- equality up to operator parameters still counts the parts
    exact isMerged_of_length t (List.length_eq_of_beq hparts)
  · intro h
    rw [merged_of_isMerged t h]
    exact beq_self_eq_true t

end UriTemplate
