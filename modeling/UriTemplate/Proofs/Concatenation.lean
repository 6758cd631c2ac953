import UriTemplate.Proofs.ParserCorrect
import UriTemplate.Proofs.Refusals

/-!
# Concatenation

Two texts that can be parsed can be parsed together, to the parts of the first one and those of
the second; where a literal meets a literal, they become one (`Template.append`).  Expansion
follows: the text of both is the text of the one and then that of the other
(`expand_append`).

Nothing has to be known of the way the parser reads.  A parsed template is the merged form of
itself, because writing it gives the text that it was parsed from and parsing what was written
merges (`eq_merged_of_parse`); and merging the parts of two merged templates joins at most the
two literals that meet (`foldr_mergeInto`).
-/

namespace UriTemplate

/-! ## Joining templates -/

/-- Parts and then others.  If the last one is a literal and the first of the others is one, the
two are joined. -/
def Part.appendAll : List Part → List Part → List Part
  | [], qs => qs
  | [.literal l], .literal l' :: qs => .literal (l.append l') :: qs
  | p :: ps, qs => p :: appendAll ps qs

/-- One template after the other. -/
def Template.append (t u : Template) : Template := ⟨Part.appendAll t.parts u.parts⟩

namespace Template

/-- Putting parts without adjacent literals in front of others joins only what meets. -/
theorem foldr_mergeInto (ps qs : List Part)
    (h : ps.IsChain fun p q => ¬ (p.isLiteral = true ∧ q.isLiteral = true)) :
    ps.foldr Part.mergeInto qs = Part.appendAll ps qs := by
  fun_induction Part.appendAll ps qs with
  | case1 qs => rfl
  | case2 l l' qs => rfl
  | case3 p ps qs hno ih =>
    rw [List.isChain_cons] at h
    rw [List.foldr_cons, ih h.2]
    refine Part.mergeInto_of_not p _ fun q hq => ?_
    cases ps with
    | nil =>
      -- the part is the last one, and no two literals meet
      rintro ⟨hp, hlit⟩
      obtain ⟨qs, rfl⟩ := List.head?_eq_some_iff.mp hq
      cases p with
      | expression e => cases hp
      | literal l =>
        cases q with
        | expression e => cases hlit
        | literal l' => exact hno l l' qs rfl rfl rfl
    | cons p' ps =>
      -- what comes behind the part stays a literal, or stays none
      have hhead : ∀ q ∈ (Part.appendAll (p' :: ps) qs).head?, q.isLiteral = p'.isLiteral := by
        rw [← ih h.2, List.foldr_cons]
        exact Part.isLiteral_head_mergeInto p' _
      rw [hhead q hq]
      exact h.1 p' rfl

/-- The parts of two merged templates are merged to the joined template. -/
theorem merged_append {t u : Template} (ht : t.IsMerged) (hu : u.merged = u) :
    merged ⟨t.parts ++ u.parts⟩ = t.append u := by
  have hparts : u.parts.foldr Part.mergeInto [] = u.parts := congrArg Template.parts hu
  rw [merged, List.foldr_append, hparts, foldr_mergeInto _ _ ht, append]

/-- A parsed template has no adjacent literals. -/
theorem eq_merged_of_parse {t : Text} {T : Template} (h : parse t = .ok T) : T.merged = T := by
  obtain ⟨hformat, hreg, hread⟩ := parse_eq_ok h
  have hagain := parse_format_eq T hreg hread
  rw [hformat, h] at hagain
  exact (Except.ok.inj hagain).symm

/-- The expressions of parts and then of others. -/
theorem expressions_append (ps qs : List Part) :
    expressions ⟨ps ++ qs⟩ = expressions ⟨ps⟩ ++ expressions ⟨qs⟩ := List.filterMap_append

/-- Texts that can be parsed can be parsed together, to all of their parts merged. -/
theorem parse_flatten {ts : List Text} {Ts : List Template} (h : ts.mapM parse = .ok Ts) :
    parse ts.flatten = .ok (merged ⟨Ts.flatMap parts⟩) := by
  -- all parts together are written as the whole text, and they can be read again
  suffices hparts : format ⟨Ts.flatMap parts⟩ = ts.flatten ∧ IsRegistered ⟨Ts.flatMap parts⟩ ∧
      IsReadable ⟨Ts.flatMap parts⟩ by
    obtain ⟨hformat, hreg, hread⟩ := hparts
    rw [← hformat]
    exact parse_format_eq _ hreg hread
  -- text by text, carrying how the parts are written along with what can be read
  induction ts generalizing Ts with
  | nil =>
    obtain rfl := mapM_nil_eq_ok.mp h
    exact ⟨rfl, List.forall_mem_nil _, List.forall_mem_nil _⟩
  | cons t ts ih =>
    obtain ⟨T, Ts, hT, hTs, rfl⟩ := mapM_cons_eq_ok.mp h
    obtain ⟨hformat, hreg, hread⟩ := parse_eq_ok hT
    obtain ⟨hformats, hregs, hreads⟩ := ih hTs
    unfold IsRegistered at hregs ⊢
    unfold IsReadable at hreads ⊢
    rw [List.flatMap_cons, expressions_append, List.flatten_cons, ← hformat, ← hformats]
    refine ⟨List.flatMap_append, ?_, ?_⟩
    · exact List.forall_mem_append.mpr ⟨hreg, hregs⟩
    · exact List.forall_mem_append.mpr ⟨hread, hreads⟩

/-- Two texts that can be parsed can be parsed together. -/
theorem parse_append {a b : Text} {A B : Template} (ha : parse a = .ok A)
    (hb : parse b = .ok B) : parse (a ++ b) = .ok (A.append B) := by
  have hboth : [a, b].mapM parse = .ok [A, B] :=
    mapM_cons_eq_ok.mpr ⟨A, [B], ha, mapM_cons_eq_ok.mpr ⟨B, [], hb, rfl, rfl⟩, rfl⟩
  have hparse := parse_flatten hboth
  simp only [List.flatten_cons, List.flatten_nil, List.append_nil, List.flatMap_cons,
    List.flatMap_nil] at hparse
  have hmerged := A.merged_eq_self_iff.mp (eq_merged_of_parse ha)
  -- the first template is merged already, so only the meeting literals are joined
  rw [hparse, merged_append hmerged (eq_merged_of_parse hb)]

/-! ## Expanding one after the other -/

variable {β : Type} {look : Text → Binding β}

/-- Parts are expanded in order, and the first failure ends the expansion. -/
theorem expand_parts_append (ps qs : List Part) :
    expand look ⟨ps ++ qs⟩ = (do
      let s ← expand look ⟨ps⟩
      let t ← expand look ⟨qs⟩
      return s ++ t) := by
  induction ps with
  | nil =>
    rw [List.nil_append, expand_nil]
    cases expand look ⟨qs⟩ with
    | error e => rfl
    | ok t => rfl
  | cons p ps ih =>
    rw [List.cons_append, expand_cons, ih, expand_cons]
    -- the run stops at this part, in the others in front, or in those behind
    cases p.expand look with
    | error e => rfl
    | ok s =>
      cases expand look ⟨ps⟩ with
      | error e => rfl
      | ok t =>
        cases expand look ⟨qs⟩ with
        | error e => rfl
        | ok u => simp [bind, Except.bind, pure, Except.pure]

/-- Templates put together expand to their texts put together, and fail as the first one of them
that fails. -/
theorem expand_flatMap (Ts : List Template) :
    expand look ⟨Ts.flatMap parts⟩ = (Ts.mapM (expand look)).map List.flatten := by
  induction Ts with
  | nil => rfl
  | cons T Ts ih =>
    rw [List.flatMap_cons, expand_parts_append, ih, List.mapM_cons]
    cases T.expand look with
    | error e => rfl
    | ok s =>
      cases Ts.mapM (expand look) with
      | error e => rfl
      | ok us => rfl

/-- Joining literals does not change the text. -/
theorem expand_append {t u : Template} (ht : t.IsMerged) (hu : u.merged = u) :
    (t.append u).expand look = (do
      let s ← t.expand look
      let s' ← u.expand look
      return s ++ s') := by
  rw [← merged_append ht hu, expand_merged, expand_parts_append]

end Template

/-- Texts that can be parsed can be parsed together, and in every context they expand together as
they do one after the other: to the two texts, or with the error of the first one that fails. -/
theorem Value.expand_concatenation (a b : Text) (A B : Template)
    (ha : Value.parse (.text a) = .ok A) (hb : Value.parse (.text b) = .ok B) :
    Value.parse (.text (a ++ b)) = .ok (A.append B) ∧
      ∀ c : Context, c.IsShaped →
        (Value.expand (.text (a ++ b)) c.toValue = (do
          let s ← Value.expand (.text a) c.toValue
          let t ← Value.expand (.text b) c.toValue
          return s ++ t)) ∧
        ∀ f, Value.expand (.text a) c.toValue = .error f ∨
          Value.expand (.text b) c.toValue = .error f → f.kind = .expansion := by
  have hparseA := Value.parse_text_eq_ok.mp ha
  have hparseB := Value.parse_text_eq_ok.mp hb
  have hab : Value.parse (.text (a ++ b)) = .ok (A.append B) :=
    Value.parse_text_eq_ok.mpr (Template.parse_append hparseA hparseB)
  refine ⟨hab, fun c hshape => ?_⟩
  -- parsing is no longer in the way: each text expands as its template does
  have hexpand : ∀ t T, Value.parse (.text t) = .ok T →
      Value.expand (.text t) c.toValue = (T.expand c.look).mapError .expansion := by
    intro t T hT
    show (Value.parse (.text t) >>= fun T => Value.expandTemplate T c.toValue) = _
    rw [hT]
    rfl
  have hmerged : A.IsMerged := A.merged_eq_self_iff.mp (Template.eq_merged_of_parse hparseA)
  rw [hexpand _ _ hab, hexpand _ _ ha, hexpand _ _ hb,
    Template.expand_append hmerged (Template.eq_merged_of_parse hparseB)]
  constructor
  · cases A.expand c.look with
    | error e => rfl
    | ok s =>
      cases B.expand c.look with
      | error e => rfl
      | ok t => rfl
  · -- whichever of the two fails, its prefix lengths were read from a text
    have hkind : ∀ (t : Text) (T : Template) (f : Fault), Template.parse t = .ok T →
        (T.expand c.look).mapError .expansion = .error f → f.kind = .expansion := by
      intro t T f hT hf
      obtain ⟨err, herr, rfl⟩ := mapError_eq_error.mp hf
      exact Template.kind_of_expand_eq_error (Context.isShaped_look hshape)
        (Template.parse_eq_ok hT).2.2 herr
    intro f hf
    rcases hf with hf | hf
    · exact hkind a A f hparseA hf
    · exact hkind b B f hparseB hf

/-- Two literals meet, and where a list is bound, the second text fails. -/
theorem Value.expand_concatenation_meeting :
    ∃ (T : Template) (c c' : Context),
      Value.parse (.text ("a{x}b".toText ++ "c{y:2}".toText)) = .ok T ∧ T.parts.length = 4 ∧
        Value.expand (.text ("a{x}b".toText ++ "c{y:2}".toText)) c.toValue =
          .ok "a1%202bc%C3%A4k".toText ∧
        ∃ f, Value.expand (.text ("a{x}b".toText ++ "c{y:2}".toText)) c'.toValue = .error f ∧
          f.kind = .expansion := by
  let x : VarSpec := ⟨⟨"x".toText, by decide⟩, none⟩
  let y : VarSpec := ⟨⟨"y".toText, by decide⟩, some (.limit ⟨2, by decide⟩)⟩
  let A : Template :=
    ⟨[.literal ⟨"a".toText, by decide, by decide⟩, .expression ⟨[x], none, by decide⟩,
      .literal ⟨"b".toText, by decide, by decide⟩]⟩
  let B : Template :=
    ⟨[.literal ⟨"c".toText, by decide, by decide⟩, .expression ⟨[y], none, by decide⟩]⟩
  let c : Context :=
    ⟨[(.text "x".toText, .atom "1 2".toText), (.text "y".toText, .atom "äk!".toText)]⟩
  let c' : Context :=
    ⟨[(.text "x".toText, .atom "1 2".toText), (.text "y".toText, .list ["k".toText])]⟩
  have hA : Value.parse (.text "a{x}b".toText) = .ok A := by decide +kernel
  have hB : Value.parse (.text "c{y:2}".toText) = .ok B := by decide +kernel
  -- both texts parse, so that the theorem speaks of them in either context
  obtain ⟨hparse, hexpand⟩ := Value.expand_concatenation _ _ A B hA hB
  obtain ⟨hc, -⟩ := hexpand c (by decide)
  obtain ⟨hc', hkind⟩ := hexpand c' (by decide)
  -- a prefix cannot be taken of a list
  have hfail : Value.expand (.text "c{y:2}".toText) c'.toValue =
      .error (.expansion (.rendering "y".toText (.limitOnCollection "List"))) := by decide +kernel
  have hfirst : Value.expand (.text "a{x}b".toText) c'.toValue = .ok "a1%202b".toText := by
    decide +kernel
  refine ⟨A.append B, c, c', hparse, rfl, ?_, _, ?_, hkind _ (.inr hfail)⟩
  · rw [hc]
    decide +kernel
  · rw [hc', hfirst, hfail]
    rfl

end UriTemplate
