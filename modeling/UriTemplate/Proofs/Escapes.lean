import UriTemplate.Proofs.Refusals

/-!
# Expansions that fail without a refusal

What cannot be expanded is to be refused by an error of expansion.  Two things get around that,
and no others (`Expression.Escapes`): a refusal that should show a prefix length with too many
digits, and a variable that is bound to an item without a shape.  Such an item is let into every
context, and it is refused under a prefix; elsewhere writing it is what fails.

Here nothing is assumed of the template or of the context.  The parts are gone through in order, so
that an escape can only be seen where all parts in front of it are expanded
(`Value.expand_escapes_iff`).
-/

namespace UriTemplate

variable {β : Type}

/-! ## The reasons -/

/-- The variable is bound to an item that has no shape. -/
def VarSpec.IsShapeless (look : Text → Binding β) (v : VarSpec) : Prop :=
  ∃ value, look v.name.text = .item (.bare value)

/-- How an expression fails with an error that is not one of expansion. -/
inductive Expression.Escapes (look : Text → Binding β) (e : Expression) : ErrorKind → Prop
  /-- The operator is set aside, and the refusal shows a length that cannot be written. -/
  | reserved (v : VarSpec) (hop : e.effectiveOperator.isReserved = true) (hv : v ∈ e.specs)
      (hlong : v.isWritable = false) : Escapes look e .value
  /-- The first length beyond the limit cannot be written. -/
  | limit (vs ws : List VarSpec) (v : VarSpec) (hop : e.effectiveOperator.isReserved = false)
      (hspecs : e.specs = vs ++ v :: ws)
      (hvs : ∀ u ∈ vs, ∀ n, u.limit? = some n → n ≤ 9999) (hlong : v.isWritable = false) :
      Escapes look e .value
  /-- The first variable that cannot be written has an item without a shape, and no prefix. -/
  | shapeless (vs ws : List VarSpec) (v : VarSpec)
      (hop : e.effectiveOperator.isReserved = false)
      (hlimits : ∀ u ∈ e.specs, ∀ n, u.limit? = some n → n ≤ 9999)
      (hspecs : e.specs = vs ++ v :: ws)
      (hvs : ∀ u ∈ vs, ¬ u.Fails look ∧ ¬ u.IsShapeless look) (hv : v.IsShapeless look)
      (hplain : v.limit? = none) : Escapes look e .notImplemented

/-- None of these errors is one of expansion. -/
theorem Expression.Escapes.kind_ne {look : Text → Binding β} {e : Expression} {k : ErrorKind}
    (h : e.Escapes look k) : k ≠ .expansion := by
  cases h <;> decide

/-! ## Variables -/

namespace VarSpec

variable {look : Text → Binding β} {v : VarSpec} {o : Operator}

/-- A name that is bound to no foreign thing has an item with a shape, or one without. -/
theorem isShaped_or_isShapeless (hbound : look v.name.text ≠ .foreign) :
    (look v.name.text).IsShaped ∨ v.IsShapeless look := by
  cases hi : look v.name.text with
  | unbound => exact .inl trivial
  | foreign => exact absurd hi hbound
  | item i =>
    cases i with
    | atom t => exact .inl rfl
    | list ts => exact .inl rfl
    | assoc pairs => exact .inl rfl
    | bare value => exact .inr ⟨value, hi⟩

/-- An item without a shape is refused under a prefix. -/
theorem expand?_of_isShapeless (h : v.IsShapeless look) :
    v.expand? look o = .error (.rendering v.name.text
      (if v.limit?.isSome then .limitOnCollection "DataItem" else .shapeless)) := by
  obtain ⟨value, hi⟩ := h
  simp only [expand?, hi, Item.isDefined, render, Item.kind, if_true]
  cases v.limit? with
  | none => rfl
  | some n => rfl

/-- A shape is what an item without one lacks. -/
theorem not_isShapeless_of_isShaped (h : (look v.name.text).IsShaped) :
    ¬ v.IsShapeless look := by
  rintro ⟨value, hi⟩
  rw [hi] at h
  cases h

/-- A variable is expanded just if its item has a shape and can be written. -/
theorem exists_expand?_eq_ok_iff_of_ne_foreign (hbound : look v.name.text ≠ .foreign) :
    (∃ text?, v.expand? look o = .ok text?) ↔ ¬ v.Fails look ∧ ¬ v.IsShapeless look := by
  rcases isShaped_or_isShapeless hbound with hshape | hshapeless
  · rw [exists_expand?_eq_ok_iff hshape]
    exact (and_iff_left (not_isShapeless_of_isShaped hshape)).symm
  · simp [expand?_of_isShapeless hshapeless, hshapeless]

/-- The error of a variable is one of expansion, or it is bound to an item without a shape and has
no prefix. -/
theorem kind_of_expand?_eq_error (hbound : look v.name.text ≠ .foreign) {err : ExpansionError}
    (h : v.expand? look o = .error err) :
    (Fault.expansion err).kind = .expansion ∨
      v.IsShapeless look ∧ v.limit? = none ∧ (Fault.expansion err).kind = .notImplemented := by
  rcases isShaped_or_isShapeless hbound with hshape | hshapeless
  · left
    obtain ⟨i, cause, hi, hcause, rfl⟩ := expand?_eq_error hshape h
    -- among the reasons to refuse a value only the missing shape is no refusal
    cases cause with
    | shapeless =>
      exfalso
      -- only an item that cannot be written has an error at all
      by_cases hfails : v.Fails look
      · obtain ⟨j, hj, hfail⟩ := hfails
        rw [hi] at hj
        cases hj
        exact render_ne_shapeless hfail hcause
      · obtain ⟨text?, htext⟩ := (exists_expand?_eq_ok_iff hshape).mpr hfails
        exact ne_ok_of_eq_error h htext
    | limitOnCollection kind => rfl
    | unencodable cause => rfl
    | unsupported value => rfl
  · rw [expand?_of_isShapeless hshapeless] at h
    cases h
    cases hlimit : v.limit? with
    | none => exact .inr ⟨hshapeless, rfl, rfl⟩
    | some n => exact .inl rfl

end VarSpec

/-! ## Expressions -/

/-- A refusal shows all of its lengths, or there is one that cannot be written. -/
theorem ExpansionError.showing_cases (specs : List VarSpec) (err : ExpansionError) :
    ((∀ v ∈ specs, v.isWritable = true) ∧ err.showing specs = err) ∨
      (∃ v ∈ specs, v.isWritable = false) ∧ err.showing specs = .oversizedLength := by
  unfold showing
  split
  · next hall => exact .inl ⟨List.all_eq_true.mp hall, rfl⟩
  · next hall =>
    obtain ⟨v, hv, hlong⟩ : ∃ v ∈ specs, v.isWritable = false := by simpa using hall
    exact .inr ⟨⟨v, hv, hlong⟩, rfl⟩

namespace Expression

variable {look : Text → Binding β} {e : Expression}

/-- A check fails with a refusal, or because the refusal cannot be worded. -/
theorem kind_of_check_eq_error {err : ExpansionError} (h : e.check = .error err) :
    (Fault.expansion err).kind = .expansion ∨ e.Escapes look (Fault.expansion err).kind := by
  unfold check at h
  -- the operator is looked at first, and then the lengths one after the other
  split at h
  · next hop =>
    obtain ⟨-, hshow⟩ | ⟨⟨v, hv, hlong⟩, hshow⟩ := ExpansionError.showing_cases e.specs
      (.reservedOperator e.effectiveOperator.symbol.quoted e.format)
    · rw [hshow] at h
      cases h
      exact .inl rfl
    · rw [hshow] at h
      cases h
      exact .inr (.reserved v hop hv hlong)
  · next hop =>
    -- the first length that is too large is the one that is refused
    obtain ⟨vs, v, ws, hfirst⟩ := firstFails_of_forM_eq_error h
    obtain ⟨n, hn, hlarge, rfl⟩ := VarSpec.checkLimit_eq_error hfirst.fails
    obtain ⟨-, hshow⟩ | ⟨⟨u, hu, hlong⟩, hshow⟩ :=
      ExpansionError.showing_cases [v] (.limitTooLarge v.name.text n)
    · rw [hshow]
      exact .inl rfl
    · rw [hshow]
      obtain rfl := List.mem_singleton.mp hu
      refine .inr (.limit vs ws u (by simpa using hop) hfirst.split (fun w hw => ?_) hlong)
      obtain ⟨_, hw⟩ := hfirst.before w hw
      exact VarSpec.checkLimit_eq_ok_iff.mp hw

/-- An expression fails with a refusal, or it escapes. -/
theorem kind_of_expand_eq_error (hbound : ∀ name, look name ≠ .foreign) {err : ExpansionError}
    (h : e.expand look = .error err) :
    (Fault.expansion err).kind = .expansion ∨ e.Escapes look (Fault.expansion err).kind := by
  unfold expand at h
  -- either the check has failed, or the first variable that cannot be expanded has
  rcases bind_eq_error.mp h with hcheck | ⟨_, hcheck, hrest⟩
  · exact kind_of_check_eq_error hcheck
  · obtain ⟨hop, hlimits⟩ := check_eq_ok_iff.mp hcheck
    rcases bind_eq_error.mp hrest with htexts | ⟨texts, -, hpure⟩
    · obtain ⟨vs, v, ws, hfirst⟩ := firstFails_of_mapM_eq_error htexts
      rcases VarSpec.kind_of_expand?_eq_error (hbound _) hfirst.fails with
        hkind | ⟨hv, hplain, hkind⟩
      · exact .inl hkind
      · rw [hkind]
        refine .inr (.shapeless vs ws v hop hlimits hfirst.split (fun u hu => ?_) hv hplain)
        exact (VarSpec.exists_expand?_eq_ok_iff_of_ne_foreign (hbound _)).mp (hfirst.before u hu)
    · exact absurd hpure pure_ne_error

/-- An expression that escapes fails so. -/
theorem Escapes.exists_error (hbound : ∀ name, look name ≠ .foreign) {k : ErrorKind}
    (h : e.Escapes look k) :
    ∃ err, e.expand look = .error err ∧ (Fault.expansion err).kind = k := by
  -- each reason names the first thing that goes wrong, so that the run ends there
  cases h with
  | reserved v hop hv hlong =>
    have hcheck : e.check = .error .oversizedLength := by
      rw [check, if_pos hop]
      -- a length of this expression cannot be written, so that the refusal cannot be worded
      obtain ⟨hall, -⟩ | ⟨-, hshow⟩ := ExpansionError.showing_cases e.specs
        (.reservedOperator e.effectiveOperator.symbol.quoted e.format)
      · rw [hall v hv] at hlong
        cases hlong
      · rw [hshow]
    exact ⟨_, bind_eq_error.mpr (.inl hcheck), rfl⟩
  | limit vs ws v hop hspecs hvs hlong =>
    -- the lengths in front are small enough, and this one cannot be written either
    have hfirst : FirstFails VarSpec.checkLimit e.specs vs v ws .oversizedLength :=
      ⟨hspecs, fun u hu => ⟨(), VarSpec.checkLimit_eq_ok_iff.mpr (hvs u hu)⟩,
        VarSpec.checkLimit_of_not_isWritable hlong⟩
    have hcheck : e.check = .error .oversizedLength := by
      rw [check, if_neg (by simp [hop]), hfirst.forM_eq]
    exact ⟨_, bind_eq_error.mpr (.inl hcheck), rfl⟩
  | shapeless vs ws v hop hlimits hspecs hvs hv hplain =>
    have hcheck : e.check = .ok () := check_eq_ok_iff.mpr ⟨hop, hlimits⟩
    have hfirst : FirstFails (VarSpec.expand? look e.effectiveOperator) e.specs vs v ws
        (.rendering v.name.text .shapeless) := by
      refine ⟨hspecs, fun u hu => ?_, ?_⟩
      · exact (VarSpec.exists_expand?_eq_ok_iff_of_ne_foreign (hbound _)).mpr (hvs u hu)
      · rw [VarSpec.expand?_of_isShapeless hv, hplain]
        rfl
    exact ⟨_, bind_eq_error.mpr (.inr ⟨(), hcheck, bind_eq_error.mpr (.inl hfirst.mapM_eq)⟩), rfl⟩

end Expression

/-! ## Templates -/

namespace Template

variable {look : Text → Binding β}

/-- The first expression of a template that cannot be expanded escapes. -/
def Escapes (look : Text → Binding β) (t : Template) (k : ErrorKind) : Prop :=
  ∃ ps e qs, t.parts = ps ++ .expression e :: qs ∧ (∃ s, Template.expand look ⟨ps⟩ = .ok s) ∧
    e.Escapes look k

/-- A template fails with an error of another kind just if it escapes. -/
theorem escapes_iff (hbound : ∀ name, look name ≠ .foreign) (t : Template) (k : ErrorKind) :
    t.Escapes look k ↔
      k ≠ .expansion ∧ ∃ err, t.expand look = .error err ∧ (Fault.expansion err).kind = k := by
  constructor
  · intro ⟨ps, e, qs, hparts, hfront, hescapes⟩
    obtain ⟨err, herr, hkind⟩ := hescapes.exists_error hbound
    -- in front of the expression everything expands, so that it fails first
    have hfirst : FirstFails (Part.expand look) t.parts ps (.expression e) qs err :=
      ⟨hparts, exists_mapM_eq_ok_iff.mp (exists_map_eq_ok_iff.mp hfront), herr⟩
    exact ⟨hescapes.kind_ne, err, map_eq_error.mpr hfirst.mapM_eq, hkind⟩
  · rintro ⟨hne, err, herr, rfl⟩
    obtain ⟨ps, p, qs, hfirst⟩ := firstFails_of_mapM_eq_error (map_eq_error.mp herr)
    have hfront : ∃ s, Template.expand look ⟨ps⟩ = .ok s :=
      exists_map_eq_ok_iff.mpr (exists_mapM_eq_ok_iff.mpr hfirst.before)
    -- what fails is an expression, since literals are written as they are
    cases p with
    | literal l => cases hfirst.fails
    | expression e =>
      have hkind := Expression.kind_of_expand_eq_error hbound hfirst.fails
      exact ⟨ps, e, qs, hfirst.split, hfront, hkind.resolve_left hne⟩

end Template

/-! ## Contexts -/

/-- A context binds no name to a foreign thing. -/
theorem Context.look_ne_foreign (c : Context) (name : Text) : c.look name ≠ .foreign := by
  unfold look
  split
  · exact nofun
  · exact nofun

namespace Value

/-- A template that is not usable is answered by nothing. -/
theorem orNone_of_kind {α : Type} {f : Fault} (h : f.kind = .expansion) :
    orNone (.error f : Except Fault α) = .ok none := by
  rw [orNone, isUnusable, h]
  rfl

/-- An escape is not caught. -/
theorem orNone_of_escapes {α : Type} {f : Fault} {t : Template} {look : Text → Binding β}
    (h : t.Escapes look f.kind) : orNone (.error f : Except Fault α) = .error f := by
  obtain ⟨ps, e, qs, -, -, hescapes⟩ := h
  have hkind : f.kind = .value ∨ f.kind = .notImplemented := by
    -- an escape is a fault in a value or a form that is not implemented
    generalize f.kind = k at hescapes
    cases hescapes with
    | reserved => exact .inl rfl
    | limit => exact .inl rfl
    | shapeless => exact .inr rfl
  rw [orNone, isUnusable]
  rcases hkind with hkind | hkind
  · rw [hkind]
    rfl
  · rw [hkind]
    rfl

/-- Expanding a template in a context ends in a text or in an error of expansion, and trying to
expand it in the text or in nothing, just if no expression escapes before another one is refused.
If one does, the error is of the kind in question. -/
theorem expand_escapes_iff (t : Template) (c : Context) :
    (∀ k, t.Escapes c.look k ↔
      k ≠ .expansion ∧ ∃ f, Value.expand (.node (.template t)) c.toValue = .error f ∧ f.kind = k) ∧
    (((∃ s, Value.expand (.node (.template t)) c.toValue = .ok s) ∨
        ∃ f, Value.expand (.node (.template t)) c.toValue = .error f ∧ f.kind = .expansion) ↔
      ∀ k, ¬ t.Escapes c.look k) ∧
    ((∃ r, orNone (Value.expand (.node (.template t)) c.toValue) = .ok r) ↔
      ∀ k, ¬ t.Escapes c.look k) := by
  have hexpand : Value.expand (.node (.template t)) c.toValue =
      (t.expand c.look).mapError .expansion := rfl
  have hescapes (k : ErrorKind) : t.Escapes c.look k ↔ k ≠ .expansion ∧
      ∃ f, Value.expand (.node (.template t)) c.toValue = .error f ∧ f.kind = k := by
    rw [Template.escapes_iff c.look_ne_foreign, hexpand]
    refine and_congr_right fun _ => ⟨fun ⟨err, herr, hkind⟩ => ?_, fun ⟨f, hf, hkind⟩ => ?_⟩
    · exact ⟨.expansion err, mapError_eq_error.mpr ⟨err, herr, rfl⟩, hkind⟩
    · obtain ⟨err, herr, rfl⟩ := mapError_eq_error.mp hf
      exact ⟨err, herr, hkind⟩
  refine ⟨hescapes, ?_⟩
  -- the run has one ending, which decides all three sides
  cases hrun : Value.expand (.node (.template t)) c.toValue with
  | ok s =>
    have hno (k : ErrorKind) : ¬ t.Escapes c.look k := fun h => by
      obtain ⟨-, f, hf, -⟩ := (hescapes k).mp h
      exact ne_ok_of_eq_error hf hrun
    exact ⟨iff_of_true (.inl ⟨s, rfl⟩) hno, iff_of_true ⟨some s, rfl⟩ hno⟩
  | error f =>
    -- a refusal is no escape, and anything else is one
    by_cases hkind : f.kind = .expansion
    · have hno (k : ErrorKind) : ¬ t.Escapes c.look k := fun h => by
        obtain ⟨hne, f', hf', rfl⟩ := (hescapes k).mp h
        rw [hrun] at hf'
        cases hf'
        exact hne hkind
      exact ⟨iff_of_true (.inr ⟨f, rfl, hkind⟩) hno, iff_of_true ⟨none, orNone_of_kind hkind⟩ hno⟩
    · have hescape : t.Escapes c.look f.kind := (hescapes f.kind).mpr ⟨hkind, f, hrun, rfl⟩
      have hsome : ¬ ∀ k, ¬ t.Escapes c.look k := fun hno => hno _ hescape
      refine ⟨iff_of_false ?_ hsome, iff_of_false ?_ hsome⟩
      · rintro (⟨s, hs⟩ | ⟨f', hf', hkind'⟩)
        · cases hs
        · cases hf'
          exact hkind hkind'
      · rintro ⟨r, hr⟩
        rw [orNone_of_escapes hescape] at hr
        cases hr

/-- A variable without a shape is reached behind an expression that is expanded and behind a
variable that is not defined. -/
theorem expand_escapes_behind :
    ∃ (t : Template) (c : Context) (f : Fault),
      t.format = "{x}{?y,a}".toText ∧ c.look "x".toText = .item (.atom "1".toText) ∧
        c.look "y".toText = .unbound ∧ c.look "a".toText = .item (.bare .null) ∧
        Value.expand (.node (.template t)) c.toValue = .error f ∧ f.kind = .notImplemented := by
  let x : VarSpec := ⟨⟨"x".toText, by decide⟩, none⟩
  let y : VarSpec := ⟨⟨"y".toText, by decide⟩, none⟩
  let a : VarSpec := ⟨⟨"a".toText, by decide⟩, none⟩
  let front : List Part := [.expression ⟨[x], none, by decide⟩]
  let e : Expression := ⟨[y, a], some (.prefixing '?' '&' true "=".toText), by decide⟩
  let t : Template := ⟨front ++ [.expression e]⟩
  let c : Context := ⟨[(.text "x".toText, .atom "1".toText), (.text "a".toText, .bare .null)]⟩
  have hy : c.look "y".toText = .unbound := rfl
  have hescapes : t.Escapes c.look .notImplemented := by
    refine ⟨front, e, [], rfl, ⟨"1".toText, rfl⟩, ?_⟩
    -- in front of the variable stands one that is not bound
    refine .shapeless [y] [] a rfl (fun u hu n hn => ?_) rfl (fun u hu => ?_) ⟨.null, rfl⟩ rfl
    · -- there are no prefix lengths
      have hplain : ∀ u ∈ e.specs, u.limit? = none := by decide
      rw [hplain u hu] at hn
      cases hn
    · obtain rfl := List.mem_singleton.mp hu
      -- neither a value that cannot be written, nor one without a shape
      constructor
      · rintro ⟨i, hi, -⟩
        rw [hy] at hi
        cases hi
      · rintro ⟨i, hi⟩
        rw [hy] at hi
        cases hi
  obtain ⟨-, f, hf, hkind⟩ := ((expand_escapes_iff t c).1 .notImplemented).mp hescapes
  exact ⟨t, c, f, by decide, rfl, hy, rfl, hf, hkind⟩

/-- The item is let into the context, the template is plain, and the error is none of expansion. -/
theorem expand_shapeless :
    ∃ (t : Template) (c : Context) (f : Fault),
      t.format = "/{a}".toText ∧ (∀ e ∈ t.expressions, e.operator = none) ∧
        Context.ofPairs [(.text "a".toText, .item (.bare (.text "x".toText)))] = .ok c ∧
        Value.expand (.node (.template t)) c.toValue = .error f ∧ f.kind = .notImplemented ∧
        ∀ r, orNone (Value.expand (.node (.template t)) c.toValue) ≠ .ok r := by
  let a : VarSpec := ⟨⟨"a".toText, by decide⟩, none⟩
  let t : Template :=
    ⟨[.literal ⟨"/".toText, by decide, by decide⟩, .expression ⟨[a], none, by decide⟩]⟩
  let c : Context := ⟨[(.text "a".toText, .bare (.text "x".toText))]⟩
  have hrun : Value.expand (.node (.template t)) c.toValue =
      .error (.expansion (.rendering "a".toText .shapeless)) := rfl
  refine ⟨t, c, _, by decide, ?_, rfl, hrun, rfl, ?_⟩
  · intro e he
    obtain rfl := List.mem_singleton.mp he
    rfl
  · intro r
    rw [hrun]
    exact nofun

end Value

end UriTemplate
