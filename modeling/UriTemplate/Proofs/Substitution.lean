import UriTemplate.Resolver.Pattern
import Mathlib.Logic.Relation

/-!
# What a configured text stands for

A text is divided at its references, which are the leftmost ones that do not overlap
(`Text.Divides`).  A name denotes the text that is configured for it with every reference
replaced by what the name in it denotes, and all else kept (`Config.Denotes`).  Nothing is
remembered between two references to one name, and there is no order in which names are looked
at: this is the plain recursion that the resolution of patterns is measured by.

A name denotes at most one text (`Denotes.unique`), and no name that denotes a text lies on a
circle of references (`Denotes.not_transGen`).  Both depend only on what is found under the names
(`denotes_congr`).
-/

namespace UriTemplate

/-! ## References in a text -/

namespace Text

/-- What stands between the angle brackets of a reference. -/
def IsReferenceName (name : Text) : Prop :=
  name ≠ [] ∧ ∀ c ∈ name, c.isReferenceChar = true

/-- A text and its pieces: references wherever one begins, read from the left, and single
characters elsewhere. -/
inductive Divides : Text → List Segment → Prop
  | nil : Divides [] []
  | reference (name t : Text) (segments : List Segment) (hname : IsReferenceName name)
      (h : Divides t segments) :
      Divides (.scalar '<' :: (name ++ .scalar '>' :: t)) (.reference name :: segments)
  | plain (c : CodePoint) (t : Text) (segments : List Segment)
      (hno : ∀ name rest, IsReferenceName name →
        c :: t ≠ .scalar '<' :: (name ++ .scalar '>' :: rest))
      (h : Divides t segments) : Divides (c :: t) (.plain c :: segments)

/-- A closing bracket ends the name of a reference, and there is no other way to end it. -/
theorem reference?_eq_some_iff (t name rest : Text) :
    reference? t = some (name, rest) ↔ IsReferenceName name ∧ t = name ++ .scalar '>' :: rest := by
  constructor
  · intro h
    unfold reference? at h
    split at h
    · next tail hdrop =>
      simp only at h
      split at h
      · cases h
      · next hne =>
        cases h
        refine ⟨⟨hne, List.all_eq_true.mp List.all_takeWhile⟩, ?_⟩
        rw [← hdrop, List.takeWhile_append_dropWhile]
    · cases h
  · rintro ⟨⟨hne, hchars⟩, rfl⟩
    have hclose : ¬ CodePoint.isReferenceChar (.scalar '>') = true := by decide
    unfold reference?
    rw [List.dropWhile_append_of_pos hchars, List.takeWhile_append_of_pos hchars,
      List.dropWhile_cons_of_neg hclose, List.takeWhile_cons_of_neg hclose]
    simp [hne]

/-- The pieces that a text is cut into divide it. -/
theorem divides_segments (t : Text) : t.Divides t.segments := by
  -- the induction follows the cutting: at the end, at a reference, at an angle bracket that opens
  -- none, and at any other character
  fun_induction segments t with
  | case1 => exact .nil
  | case2 t name rest href ih =>
    obtain ⟨hname, rfl⟩ := (reference?_eq_some_iff _ _ _).mp href
    exact .reference name rest _ hname ih
  | case3 t href ih =>
    refine .plain _ t _ (fun name rest hname heq => ?_) ih
    have hsome := (reference?_eq_some_iff t name rest).mpr ⟨hname, (List.cons.inj heq).2⟩
    rw [href] at hsome
    cases hsome
  | case4 c t hc ih =>
    refine .plain c t _ (fun name rest hname heq => ?_) ih
    exact hc (List.cons.inj heq).1

/-- There is one division of a text. -/
theorem Divides.eq_segments {t : Text} {segments : List Segment} (h : t.Divides segments) :
    segments = t.segments := by
  -- where the division has a reference the cutting finds it, and elsewhere it finds none
  induction h with
  | nil => rw [Text.segments]
  | reference name t segs hname h ih =>
    have href := (reference?_eq_some_iff (name ++ .scalar '>' :: t) name t).mpr ⟨hname, rfl⟩
    rw [Text.segments, if_pos rfl, ih]
    split
    · next name' rest' href' =>
      rw [href] at href'
      cases href'
      rfl
    · next hnone =>
      rw [href] at hnone
      cases hnone
  | plain c t segs hno h ih =>
    rw [Text.segments, ih]
    split
    · next hc =>
      split
      · next name rest href =>
        -- a reference would begin here
        obtain ⟨hname, rfl⟩ := (reference?_eq_some_iff t name rest).mp href
        exact absurd (congrArg (· :: _) hc) (hno name rest hname)
      · rfl
    · rfl

/-- A text is divided in exactly one way, and the pieces it is cut into are that way. -/
theorem divides_iff (t : Text) (segments : List Segment) :
    t.Divides segments ↔ segments = t.segments := by
  constructor
  · exact Divides.eq_segments
  · rintro rfl
    exact t.divides_segments

end Text

/-! ## What names denote -/

namespace Config

variable {config config' : Config}

/-- The text that pieces stand for: every reference stands for the text that the pieces of the
referred text stand for. -/
inductive Fills (config : Config) : List Segment → Text → Prop
  | nil : Fills config [] []
  | plain (c : CodePoint) (segments : List Segment) (u : Text) (h : Fills config segments u) :
      Fills config (.plain c :: segments) (c :: u)
  | reference (name t p u : Text) (inner segments : List Segment)
      (hget : config.get? (.text name) = some (.text t)) (hdiv : t.Divides inner)
      (hinner : Fills config inner p) (h : Fills config segments u) :
      Fills config (.reference name :: segments) (p ++ u)

/-- A name denotes its configured text with all references replaced. -/
def Denotes (config : Config) (name p : Text) : Prop :=
  ∃ t segments, config.get? (.text name) = some (.text t) ∧ t.Divides segments ∧
    config.Fills segments p

/-- The text of one name refers to another name. -/
def Refers (config : Config) (m n : Text) : Prop :=
  ∃ t segments, config.get? (.text m) = some (.text t) ∧ t.Divides segments ∧
    .reference n ∈ segments

/-- The references of a name are those among the pieces of its text. -/
theorem refers_iff {m n t : Text} {segments : List Segment}
    (hget : config.get? (.text m) = some (.text t)) (hdiv : t.Divides segments) :
    config.Refers m n ↔ .reference n ∈ segments := by
  constructor
  · rintro ⟨t', segments', hget', hdiv', hmem⟩
    rw [hget] at hget'
    cases hget'
    rwa [hdiv.eq_segments, ← hdiv'.eq_segments]
  · exact fun hmem => ⟨t, segments, hget, hdiv, hmem⟩

/-- Pieces stand for one text: a name has one configured text, and that text has one division. -/
theorem Fills.unique {segments : List Segment} {p q : Text} (hp : config.Fills segments p)
    (hq : config.Fills segments q) : p = q := by
  -- along the first derivation, whose last step fixes the one of the second
  induction hp generalizing q with
  | nil =>
    cases hq
    rfl
  | plain c segments u h ih =>
    cases hq with
    | plain c segments u' h' => rw [ih h']
  | reference name t p u inner segments hget hdiv hinner h ihinner ih =>
    cases hq with
    | reference name t' p' u' inner' segments hget' hdiv' hinner' h' =>
      rw [hget] at hget'
      cases hget'
      rw [hdiv.eq_segments] at ihinner
      rw [hdiv'.eq_segments] at hinner'
      rw [ihinner hinner', ih h']

/-- A name denotes at most one text. -/
theorem Denotes.unique {name p q : Text} (hp : config.Denotes name p)
    (hq : config.Denotes name q) : p = q := by
  obtain ⟨t, segments, hget, hdiv, hfill⟩ := hp
  obtain ⟨t', segments', hget', hdiv', hfill'⟩ := hq
  rw [hget] at hget'
  cases hget'
  rw [hdiv.eq_segments] at hfill
  rw [hdiv'.eq_segments] at hfill'
  exact hfill.unique hfill'

/-- A reference stands for what its name denotes. -/
theorem Denotes.fills_cons {name p u : Text} {segments : List Segment} (hp : config.Denotes name p)
    (h : config.Fills segments u) : config.Fills (.reference name :: segments) (p ++ u) := by
  obtain ⟨t, inner, hget, hdiv, hinner⟩ := hp
  exact .reference name t p u inner segments hget hdiv hinner h

/-- A reference among pieces that stand for a text denotes a text itself. -/
theorem Fills.exists_denotes {segments : List Segment} {u name : Text}
    (h : config.Fills segments u) (hmem : .reference name ∈ segments) :
    ∃ p, config.Denotes name p := by
  induction h with
  | nil => cases hmem
  | plain c segments u h ih => exact ih (by simpa using hmem)
  | reference name' t p u inner segments hget hdiv hinner h _ ih =>
    rcases List.mem_cons.mp hmem with heq | hmem
    · cases heq
      exact ⟨p, t, inner, hget, hdiv, hinner⟩
    · exact ih hmem

/-- A name that denotes a text refers to such names alone. -/
theorem Denotes.exists_of_refers {m n p : Text} (h : config.Denotes m p)
    (href : config.Refers m n) : ∃ q, config.Denotes n q := by
  obtain ⟨t, segments, hget, hdiv, hfill⟩ := h
  exact hfill.exists_denotes ((refers_iff hget hdiv).mp href)

/-- From a reference in pieces that stand for a text, references lead nowhere for ever. -/
theorem Fills.acc {segments : List Segment} {u : Text} (h : config.Fills segments u) :
    ∀ name, .reference name ∈ segments → Acc (fun a b => config.Refers b a) name := by
  -- the induction carries accessibility through the pieces of the referred text as well
  induction h with
  | nil =>
    intro name hmem
    cases hmem
  | plain c segments u h ih =>
    intro name hmem
    exact ih name (by simpa using hmem)
  | reference name' t p u inner segments hget hdiv hinner h ihinner ih =>
    intro name hmem
    rcases List.mem_cons.mp hmem with heq | hmem
    · cases heq
      exact .intro _ fun n href => ihinner n ((refers_iff hget hdiv).mp href)
    · exact ih name hmem

/-- A name that denotes a text lies on no circle of references. -/
theorem Denotes.not_transGen {name p : Text} (h : config.Denotes name p) :
    ¬ Relation.TransGen config.Refers name name := by
  obtain ⟨t, segments, hget, hdiv, hfill⟩ := h
  -- references lead nowhere for ever from this name, since they do so from none of its references
  have hacc : Acc (fun a b => config.Refers b a) name :=
    .intro _ fun n href => hfill.acc n ((refers_iff hget hdiv).mp href)
  clear hget hdiv hfill
  induction hacc with
  | intro n _ ih =>
    -- the next name on the circle is accessible before this one, and lies on it as well
    intro hcycle
    obtain ⟨m, hnm, hmn⟩ := Relation.TransGen.head'_iff.mp hcycle
    exact ih m hnm (Relation.TransGen.tail' hmn hnm)

/-- What a name denotes depends only on what is found under the names. -/
theorem fills_congr (hget : ∀ n, config.get? (.text n) = config'.get? (.text n))
    {segments : List Segment} {u : Text} (h : config.Fills segments u) :
    config'.Fills segments u := by
  induction h with
  | nil => exact .nil
  | plain c segments u h ih => exact .plain c segments u ih
  | reference name t p u inner segments hname hdiv hinner h ihinner ih =>
    exact .reference name t p u inner segments (by rw [← hget, hname]) hdiv ihinner ih

/-- Two configurations in which the same is found under every text give names the same meaning. -/
theorem denotes_congr (hget : ∀ n, config.get? (.text n) = config'.get? (.text n))
    {name p : Text} (h : config.Denotes name p) : config'.Denotes name p := by
  obtain ⟨t, segments, hname, hdiv, hfill⟩ := h
  exact ⟨t, segments, by rw [← hget, hname], hdiv, fills_congr hget hfill⟩

end Config

end UriTemplate
