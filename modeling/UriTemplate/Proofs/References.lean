import UriTemplate.Proofs.Concatenation
import UriTemplate.Proofs.LoadedPatterns

/-!
# References and expansion

References are replaced in the text of a template before the text is parsed, so that nothing in
the loaded template shows where a referred template begins or ends.  Where what stands between the
references can be parsed by itself, this makes no difference: the template is made of the templates
of its pieces with the literals that meet joined, and it expands piece by piece
(`ofValue_references`).

The text that a name denotes is the texts of its pieces one after the other
(`Config.Fills.exists_texts`).  A reference stands for a whole pattern, which is parsed to the
template of its name, whatever it refers to itself: so one look at the pieces of one text is
enough, and no path of references is followed here.
-/

namespace UriTemplate

/-! ## Pieces of a text -/

/-- What a text is made of: the name in a reference, or a stretch without references. -/
inductive Piece where
  | stretch (s : Text)
  | named (name : Text)

namespace Piece

def segments : Piece → List Segment
  | stretch s => s.map .plain
  | named name => [.reference name]

/-- A stretch and then references, each with the stretch behind it. -/
def alternate (s : Text) (rs : List (Text × Text)) : List Piece :=
  stretch s :: rs.flatMap fun r => [named r.1, stretch r.2]

/-- The template of a piece: that of the name, or what the stretch is parsed to. -/
def template (r : Resolver) : Piece → Except Fault Template
  | stretch s => Value.parse (.text s)
  | named name => r.getTemplate (.text name)

/-- The expansion of a piece: by the resolver under the name, or of the stretch by itself. -/
def expand (r : Resolver) (fields : Value) : Piece → Except Fault Text
  | stretch s => Value.expand (.text s) fields
  | named name => r.expand (.text name) fields

/-- A piece is expanded by expanding its template. -/
theorem expand_eq (r : Resolver) (fields : Value) (p : Piece) :
    p.expand r fields = p.template r >>= fun T => Value.expandTemplate T fields := by
  cases p with
  | stretch s => rfl
  | named name => rfl

/-- The text of a piece. -/
def Stands (config : Config) : Piece → Text → Prop
  | stretch s, u => u = s
  | named name, u => config.Denotes name u

end Piece

/-- Every text is a stretch and then references with stretches behind them. -/
theorem Text.exists_alternate (t : Text) :
    ∃ s rs, t.Divides ((Piece.alternate s rs).flatMap Piece.segments) := by
  suffices hall : ∀ segments : List Segment,
      ∃ s rs, segments = (Piece.alternate s rs).flatMap Piece.segments by
    obtain ⟨s, rs, heq⟩ := hall t.segments
    exact ⟨s, rs, heq ▸ t.divides_segments⟩
  intro segments
  -- a character goes on with the stretch in front, and a reference begins a new one
  induction segments with
  | nil => exact ⟨[], [], rfl⟩
  | cons segment segments ih =>
    obtain ⟨s, rs, rfl⟩ := ih
    cases segment with
    | plain c => exact ⟨c :: s, rs, rfl⟩
    | reference name => exact ⟨[], (name, s) :: rs, rfl⟩

namespace Config

variable {config : Config}

/-- A stretch in front stands for itself. -/
theorem Fills.exists_of_stretch {s u : Text} {segments : List Segment}
    (h : config.Fills (s.map .plain ++ segments) u) :
    ∃ w, u = s ++ w ∧ config.Fills segments w := by
  induction s generalizing u with
  | nil => exact ⟨u, rfl, h⟩
  | cons c s ih =>
    cases h with
    | plain c segs u h =>
      obtain ⟨w, rfl, hw⟩ := ih h
      exact ⟨w, rfl, hw⟩

/-- What pieces stand for is made of what each of them stands for. -/
theorem Fills.exists_texts {ps : List Piece} {u : Text}
    (h : config.Fills (ps.flatMap Piece.segments) u) :
    ∃ us : List Text, u = us.flatten ∧ List.Forall₂ (Piece.Stands config) ps us := by
  -- a stretch stands for itself, and a reference for what its name denotes
  induction ps generalizing u with
  | nil =>
    cases h
    exact ⟨[], rfl, .nil⟩
  | cons p ps ih =>
    rw [List.flatMap_cons] at h
    cases p with
    | stretch s =>
      obtain ⟨w, rfl, hw⟩ := h.exists_of_stretch
      obtain ⟨us, rfl, hus⟩ := ih hw
      exact ⟨s :: us, rfl, .cons rfl hus⟩
    | named name =>
      cases h with
      | reference name t q w inner segs hget hdiv hinner h =>
        obtain ⟨us, rfl, hus⟩ := ih h
        exact ⟨q :: us, rfl, .cons ⟨t, inner, hget, hdiv, hinner⟩ hus⟩

end Config

/-! ## The template and the expansion of a name -/

namespace Resolver

variable {config : Config} {r : Resolver}

/-- What a piece stands for is parsed to the template of the piece. -/
theorem HasLoaded.exists_template (hnames : config.HasTextNames)
    (hloaded : HasLoaded config config r) {p : Piece} {u : Text} (hu : p.Stands config u)
    (hparse : ∀ s, p = .stretch s → ∃ T, Value.parse (.text s) = .ok T) :
    ∃ T, Template.parse u = .ok T ∧ p.template r = .ok T := by
  -- a stretch is parsed by assumption, and a name has been loaded with its template
  cases p with
  | stretch s =>
    obtain ⟨T, hT⟩ := hparse s rfl
    obtain rfl : u = s := hu
    exact ⟨T, Value.parse_text_eq_ok.mp hT, hT⟩
  | named name =>
    have hdenotes : config.Denotes name u := hu
    obtain ⟨q, T, hhas⟩ := hloaded.has name (hdenotes.mem_keys hnames)
    obtain rfl := hdenotes.unique hhas.denotes
    exact ⟨T, hhas.parse, hhas.getTemplate⟩

/-- The pieces have templates, to which their texts are parsed. -/
theorem HasLoaded.exists_templates (hnames : config.HasTextNames)
    (hloaded : HasLoaded config config r) {ps : List Piece} {us : List Text}
    (hus : List.Forall₂ (Piece.Stands config) ps us)
    (hparse : ∀ s, .stretch s ∈ ps → ∃ T, Value.parse (.text s) = .ok T) :
    ∃ Ts, us.mapM Template.parse = .ok Ts ∧ ps.mapM (Piece.template r) = .ok Ts := by
  induction hus with
  | nil => exact ⟨[], rfl, rfl⟩
  | @cons p u ps us hu hus ih =>
    obtain ⟨T, hT, htemplate⟩ := hloaded.exists_template hnames hu fun s hp =>
      hparse s (hp ▸ List.mem_cons_self)
    obtain ⟨Ts, hTs, htemplates⟩ := ih fun s hs => hparse s (List.mem_cons_of_mem _ hs)
    exact ⟨T :: Ts, mapM_cons_eq_ok.mpr ⟨T, Ts, hT, hTs, rfl⟩,
      mapM_cons_eq_ok.mpr ⟨T, Ts, htemplate, htemplates, rfl⟩⟩

/-- The template of a name is made of those of the pieces of its text. -/
theorem HasLoaded.getTemplate_pieces (hnames : config.HasTextNames)
    (hloaded : HasLoaded config config r) {n t : Text}
    (ht : config.get? (.text n) = some (.text t)) {ps : List Piece}
    (hdiv : t.Divides (ps.flatMap Piece.segments))
    (hparse : ∀ s, .stretch s ∈ ps → ∃ T, Value.parse (.text s) = .ok T) :
    ∃ Ts p, ps.mapM (Piece.template r) = .ok Ts ∧
      Has config r n p (Template.merged ⟨Ts.flatMap Template.parts⟩) := by
  have hn : .text n ∈ config.keys := (Entries.mem_keys_iff hnames n).mpr ⟨_, ht⟩
  obtain ⟨p, T, hhas⟩ := hloaded.has n hn
  -- the text that the name denotes is that of the pieces
  obtain ⟨t', segments, hget, hdiv', hfill⟩ := hhas.denotes
  rw [ht] at hget
  cases hget
  rw [hdiv'.eq_segments, ← hdiv.eq_segments] at hfill
  obtain ⟨us, rfl, hus⟩ := hfill.exists_texts
  obtain ⟨Ts, hTs, htemplates⟩ := hloaded.exists_templates hnames hus hparse
  -- and both are parsed to one template
  have hwhole := Template.parse_flatten hTs
  rw [hhas.parse] at hwhole
  cases hwhole
  exact ⟨Ts, _, htemplates, hhas⟩

/-- A name whose template is made of those of pieces is expanded piece by piece. -/
theorem expand_pieces {n : Text} {ps : List Piece} {Ts : List Template}
    (hTs : ps.mapM (Piece.template r) = .ok Ts)
    (hget : r.getTemplate (.text n) = .ok (Template.merged ⟨Ts.flatMap Template.parts⟩))
    (c : Context) :
    r.expand (.text n) c.toValue = (ps.mapM (Piece.expand r c.toValue)).map List.flatten := by
  have hpieces : ps.mapM (Piece.expand r c.toValue) =
      Ts.mapM fun T => (T.expand c.look).mapError .expansion := by
    rw [mapM_congr fun p _ => p.expand_eq r c.toValue, mapM_bind_of_mapM_eq_ok hTs]
    rfl
  -- merging does not change the expansion, and joined parts are expanded one after the other
  calc r.expand (.text n) c.toValue
      = Value.expandTemplate (Template.merged ⟨Ts.flatMap Template.parts⟩) c.toValue := by
        rw [Resolver.expand, hget]
        rfl
    _ = (Template.expand c.look ⟨Ts.flatMap Template.parts⟩).mapError .expansion := by
        rw [← Template.expand_merged]
        rfl
    _ = (ps.mapM (Piece.expand r c.toValue)).map List.flatten := by
        rw [Template.expand_flatMap, mapError_map, mapError_mapM, hpieces]

/-- A loaded template that holds references is made of the templates of its pieces, with the
literals that meet joined: what stands between the references parsed by itself, and the templates
of the names.  It expands to the expansions of the pieces one after the other, and it fails, with
an error of expansion, just if one of them does. -/
theorem ofValue_references {entries : List (Value × Value)}
    (hget : Entries.get? (.text templatesKey) entries = some (.map config))
    (hnames : config.HasTextNames) (hload : ofValue (.map entries) = .ok r) {n t : Text}
    (ht : config.get? (.text n) = some (.text t)) :
    (∃ s rs, t.Divides ((Piece.alternate s rs).flatMap Piece.segments)) ∧
    ∀ s rs, t.Divides ((Piece.alternate s rs).flatMap Piece.segments) →
      (∀ u, .stretch u ∈ Piece.alternate s rs → ∃ T, Value.parse (.text u) = .ok T) →
      (∃ Ts, (Piece.alternate s rs).mapM (Piece.template r) = .ok Ts ∧
        r.getTemplate (.text n) = .ok (Template.merged ⟨Ts.flatMap Template.parts⟩)) ∧
      ∀ c : Context, c.IsShaped →
        r.expand (.text n) c.toValue =
          ((Piece.alternate s rs).mapM (Piece.expand r c.toValue)).map List.flatten ∧
        (∀ f, r.expand (.text n) c.toValue = .error f → f.kind = .expansion) ∧
        ((∃ f, r.expand (.text n) c.toValue = .error f ∧ f.kind = .expansion) ↔
          ∃ p ∈ Piece.alternate s rs, ∃ f, p.expand r c.toValue = .error f ∧
            f.kind = .expansion) := by
  rw [ofValue_eq_load hget] at hload
  have hloaded := (load_ends hnames).ok hload
  refine ⟨t.exists_alternate, fun s rs hdiv hparse => ?_⟩
  generalize Piece.alternate s rs = ps at hdiv hparse ⊢
  obtain ⟨Ts, p, hTs, hhas⟩ := hloaded.getTemplate_pieces hnames ht hdiv hparse
  refine ⟨⟨Ts, hTs, hhas.getTemplate⟩, fun c hshape => ?_⟩
  have hexpand := expand_pieces hTs hhas.getTemplate c
  -- the prefix lengths of a loaded template were read from a text
  have hkind (f : Fault) (hf : r.expand (.text n) c.toValue = .error f) : f.kind = .expansion := by
    rw [Resolver.expand, hhas.getTemplate] at hf
    obtain ⟨err, herr, rfl⟩ := mapError_eq_error.mp hf
    exact Template.kind_of_expand_eq_error (Context.isShaped_look hshape)
      (Template.parse_eq_ok hhas.parse).2.2 herr
  refine ⟨hexpand, hkind, ?_⟩
  constructor
  · intro ⟨f, hf, hexpansion⟩
    rw [hexpand] at hf
    obtain ⟨front, q, back, hfirst⟩ := firstFails_of_mapM_eq_error (map_eq_error.mp hf)
    exact ⟨q, by simp [hfirst.split], f, hfirst.fails, hexpansion⟩
  · intro ⟨q, hq, f, hf, _⟩
    cases hrun : r.expand (.text n) c.toValue with
    | error f => exact ⟨f, rfl, hkind f hrun⟩
    | ok u =>
      -- the pass over the pieces would have stopped at this one
      rw [hexpand] at hrun
      obtain ⟨us, hus⟩ := exists_map_eq_ok_iff.mp ⟨u, hrun⟩
      obtain ⟨w, hw⟩ := exists_mapM_eq_ok_iff.mp ⟨us, hus⟩ q hq
      exact absurd hw (ne_ok_of_eq_error hf)

/-- A text with two references to one name, between literals that meet those of the name. -/
def bracketed : Config :=
  [(.text "a".toText, .text "x<b>y<b>".toText), (.text "b".toText, .text "1{v}2".toText)]

/-- The configuration of this example stands under the key of the templates. -/
theorem get?_bracketed :
    Entries.get? (.text templatesKey) [(Value.text templatesKey, Value.map bracketed)] =
      some (.map bracketed) := rfl

/-- Its two names are different texts. -/
theorem hasTextNames_bracketed : bracketed.HasTextNames := by
  have hkeys : bracketed.keys = (["a", "b"].map String.toText).map .text := rfl
  exact Entries.hasTextNames_of_keys_eq hkeys (by decide)

/-- The text of the second name stands in both places of the first one. -/
theorem denotes_bracketed :
    bracketed.Denotes "a".toText "x1{v}2y1{v}2".toText ∧
      bracketed.Denotes "b".toText "1{v}2".toText := by
  have hb : bracketed.Denotes "b".toText "1{v}2".toText :=
    ⟨_, "1{v}2".toText.map .plain, rfl, (Text.divides_iff _ _).mpr (by decide +kernel),
      .plain _ _ _ (.plain _ _ _ (.plain _ _ _ (.plain _ _ _ (.plain _ _ _ .nil))))⟩
  have ha : bracketed.Denotes "a".toText "x1{v}2y1{v}2".toText :=
    ⟨_, [.plain (.scalar 'x'), .reference "b".toText, .plain (.scalar 'y'), .reference "b".toText],
      rfl, (Text.divides_iff _ _).mpr (by decide +kernel),
      .plain _ _ _ (hb.fills_cons (.plain _ _ _ (hb.fills_cons .nil)))⟩
  exact ⟨ha, hb⟩

/-- The borders of the referred template are gone, and the expansion shows nothing of that. -/
theorem ofValue_references_bracketed :
    ∃ (r : Resolver) (T : Template) (c : Context),
      ofValue (.map [(.text templatesKey, .map bracketed)]) = .ok r ∧
        r.getTemplate (.text "a".toText) = .ok T ∧ T.parts.length = 5 ∧
        r.expand (.text "b".toText) c.toValue = .ok "1%C3%A42".toText ∧
        r.expand (.text "a".toText) c.toValue = .ok "x1%C3%A42y1%C3%A42".toText := by
  let v : Part := .expression ⟨[⟨⟨"v".toText, by decide⟩, none⟩], none, by decide⟩
  let literal (t : Text) (hne : t ≠ []) (hl : ∀ x ∈ t, x.isLiteral = true) : Part :=
    .literal ⟨t, hne, hl⟩
  let x : Template := ⟨[literal "x".toText (by decide) (by decide)]⟩
  let y : Template := ⟨[literal "y".toText (by decide) (by decide)]⟩
  let B : Template := ⟨[literal "1".toText (by decide) (by decide), v,
    literal "2".toText (by decide) (by decide)]⟩
  let A : Template := ⟨[literal "x1".toText (by decide) (by decide), v,
    literal "2y1".toText (by decide) (by decide), v, literal "2".toText (by decide) (by decide)]⟩
  let c : Context := ⟨[(.text "v".toText, .atom "ä".toText)]⟩
  obtain ⟨ha, hb⟩ := denotes_bracketed
  have hparseA : Template.parse "x1{v}2y1{v}2".toText = .ok A := by decide +kernel
  have hparseB : Template.parse "1{v}2".toText = .ok B := by decide +kernel
  obtain ⟨r, hload⟩ := (exists_load_eq_ok_iff hasTextNames_bracketed).mpr fun n hn => by
    simp only [bracketed, Entries.keys, List.map_cons, List.map_nil, List.mem_cons,
      Value.text.injEq, List.not_mem_nil, or_false] at hn
    rcases hn with rfl | rfl
    · exact ⟨_, A, ha, hparseA⟩
    · exact ⟨_, B, hb, hparseB⟩
  have hgetB : r.getTemplate (.text "b".toText) = .ok B := by
    obtain ⟨q, T, hhas⟩ := ((load_ends hasTextNames_bracketed).ok hload).has "b".toText
      (hb.mem_keys hasTextNames_bracketed)
    obtain rfl := hb.unique hhas.denotes
    rw [hhas.getTemplate, Except.ok.inj (hparseB.symm.trans hhas.parse)]
  have hexpandB : r.expand (.text "b".toText) c.toValue = .ok "1%C3%A42".toText := by
    rw [Resolver.expand, hgetB]
    decide +kernel
  rw [← ofValue_eq_load get?_bracketed] at hload
  obtain ⟨-, hpieces⟩ := ofValue_references (n := "a".toText) (t := "x<b>y<b>".toText)
    get?_bracketed hasTextNames_bracketed hload rfl
  have hx : Value.parse (.text "x".toText) = .ok x := by decide +kernel
  have hy : Value.parse (.text "y".toText) = .ok y := by decide +kernel
  have hempty : Value.parse (.text []) = .ok ⟨[]⟩ := by decide +kernel
  have halternate : Piece.alternate "x".toText [("b".toText, "y".toText), ("b".toText, [])] =
      [.stretch "x".toText, .named "b".toText, .stretch "y".toText, .named "b".toText,
        .stretch []] := rfl
  obtain ⟨⟨Ts, hTs, hT⟩, hexpand⟩ := hpieces "x".toText [("b".toText, "y".toText), ("b".toText, [])]
    ((Text.divides_iff _ _).mpr (by decide +kernel)) (by
      intro u hu
      simp only [halternate, List.mem_cons, Piece.stretch.injEq, reduceCtorEq, false_or,
        List.not_mem_nil, or_false] at hu
      rcases hu with rfl | rfl | rfl
      · exact ⟨x, hx⟩
      · exact ⟨y, hy⟩
      · exact ⟨⟨[]⟩, hempty⟩)
  simp only [halternate, List.mapM_cons, List.mapM_nil, Piece.template, hx, hy, hempty,
    hgetB] at hTs
  cases hTs
  refine ⟨r, _, c, hload, hT, by decide +kernel, hexpandB, ?_⟩
  -- the text of every piece, put in the place of the piece
  have hx : Value.expand (.text "x".toText) c.toValue = .ok "x".toText := by decide +kernel
  have hy : Value.expand (.text "y".toText) c.toValue = .ok "y".toText := by decide +kernel
  have hempty : Value.expand (.text []) c.toValue = .ok [] := by decide +kernel
  rw [(hexpand c (by decide)).1, halternate]
  simp only [List.mapM_cons, List.mapM_nil, Piece.expand, hx, hy, hempty, hexpandB]
  decide

end Resolver

end UriTemplate
