import UriTemplate.Context
import UriTemplate.Proofs.Encoding
import UriTemplate.Proofs.ExpansionSteps
import UriTemplate.Proofs.Grammar
import UriTemplate.Value.Expansion

/-!
# When an expansion fails

An expression cannot be expanded for one of four reasons (`Expression.CannotExpand`): its
operator is set aside, a prefix length is beyond the limit, a prefix is asked of a collection
that has members, or a text that it would write holds a surrogate.  The reasons are given here
by the operator, the variables and what they are bound to, without running anything.

An expansion fails just if there is such an expression (`exists_expand_eq_ok_iff`), and the error is
that of the first one; within an expression the reasons are looked at in their order, and the
last two at once, variable by variable (`Expression.Refusal`).

Refusals show the prefix length.  One that has too many digits to be written makes the
refusal fail itself (`expandTemplate_oversized`).
-/

namespace UriTemplate

variable {β : Type}

/-- A name is bound to nothing, or to a single text, a list or an association. -/
def Binding.IsShaped : Binding β → Prop
  | .unbound => True
  | .item i => i.isShaped = true
  | .foreign => False

/-! ## The reasons -/

namespace VarSpec

/-- A prefix is asked of a collection that has members. -/
def CutsCollection (v : VarSpec) : Item β → Prop
  | .list ts => v.limit? ≠ none ∧ ts ≠ []
  | .assoc pairs => v.limit? ≠ none ∧ pairs.entries ≠ []
  | _ => False

/-- A text that the variable would write holds a surrogate: what the prefix leaves of a single
text, a member, a key or a value. -/
def WritesSurrogate (v : VarSpec) : Item β → Prop
  | .atom t => (v.cut t).HasSurrogate
  | .list ts => ∃ t ∈ ts, t.HasSurrogate
  | .assoc pairs => ∃ p ∈ pairs.entries, p.1.HasSurrogate ∨ p.2.HasSurrogate
  | .bare _ => False

/-- The item that the variable is bound to cannot be written. -/
def Fails (look : Text → Binding β) (v : VarSpec) : Prop :=
  ∃ i, look v.name.text = .item i ∧ (v.CutsCollection i ∨ v.WritesSurrogate i)

end VarSpec

namespace Expression

/-- Why an expression cannot be expanded where names are bound by `look`. -/
inductive CannotExpand (look : Text → Binding β) (e : Expression) : Prop
  | reserved (hop : e.effectiveOperator.isReserved = true) : CannotExpand look e
  | limit (v : VarSpec) (n : Nat) (hv : v ∈ e.specs) (hn : v.limit? = some n) (hlarge : 9999 < n) :
      CannotExpand look e
  | collection (v : VarSpec) (i : Item β) (hv : v ∈ e.specs) (hi : look v.name.text = .item i)
      (hcut : v.CutsCollection i) : CannotExpand look e
  | surrogate (v : VarSpec) (i : Item β) (hv : v ∈ e.specs) (hi : look v.name.text = .item i)
      (hwrite : v.WritesSurrogate i) : CannotExpand look e

/-- The error of an expression: the operator comes before the prefix lengths, and these before
the first variable that cannot be written. -/
inductive Refusal (look : Text → Binding β) (e : Expression) : ExpansionError → Prop
  | reserved (hop : e.effectiveOperator.isReserved = true) :
      Refusal look e (.reservedOperator e.effectiveOperator.symbol.quoted e.format)
  | limit (vs ws : List VarSpec) (v : VarSpec) (n : Nat)
      (hop : e.effectiveOperator.isReserved = false) (hspecs : e.specs = vs ++ v :: ws)
      (hvs : ∀ u ∈ vs, ∀ m, u.limit? = some m → m ≤ 9999)
      (hn : v.limit? = some n) (hlarge : 9999 < n) :
      Refusal look e (.limitTooLarge v.name.text n)
  | unwritable (vs ws : List VarSpec) (v : VarSpec) (i : Item β) (cause : RenderError)
      (hop : e.effectiveOperator.isReserved = false)
      (hlimits : ∀ u ∈ e.specs, ∀ m, u.limit? = some m → m ≤ 9999)
      (hspecs : e.specs = vs ++ v :: ws) (hvs : ∀ u ∈ vs, ¬ u.Fails look) (hfails : v.Fails look)
      (hi : look v.name.text = .item i) (hcause : v.render e.effectiveOperator i = .error cause) :
      Refusal look e (.rendering v.name.text cause)

end Expression

/-! ## Variables -/

/-- A pair can be encoded just if both of its texts can. -/
theorem exists_encodePair_eq_ok_iff (allowReserved : Bool) (p : Text × Text) :
    (∃ q, encodePair allowReserved p = .ok q) ↔ ¬ (p.1.HasSurrogate ∨ p.2.HasSurrogate) := by
  rw [not_or, ← Percent.exists_encode_eq_ok_iff allowReserved p.1,
    ← Percent.exists_encode_eq_ok_iff allowReserved p.2]
  -- the key is encoded first, and then the value
  constructor
  · intro ⟨q, hq⟩
    obtain ⟨key, hkey, hrest⟩ := bind_eq_ok.mp hq
    obtain ⟨value, hvalue, -⟩ := bind_eq_ok.mp hrest
    exact ⟨⟨key, hkey⟩, value, hvalue⟩
  · intro ⟨⟨key, hkey⟩, value, hvalue⟩
    exact ⟨_, bind_eq_ok.mpr ⟨key, hkey, bind_eq_ok.mpr ⟨value, hvalue, rfl⟩⟩⟩

namespace VarSpec

variable {v : VarSpec} {o : Operator}

/-- What the prefix leaves of a text is written just if it has no surrogate. -/
theorem exists_renderAtom_eq_ok_iff (t : Text) :
    (∃ s, v.renderAtom o t = .ok s) ↔ ¬ (v.cut t).HasSurrogate :=
  exists_bind_pure_eq_ok_iff.trans (Percent.exists_encode_eq_ok_iff _ _)

/-- The members of a list are written just if none of them has one. -/
theorem exists_renderList_eq_ok_iff (ts : List Text) :
    (∃ s, v.renderList o ts = .ok s) ↔ ¬ ∃ t ∈ ts, t.HasSurrogate := by
  refine exists_bind_pure_eq_ok_iff.trans (exists_mapM_eq_ok_iff.trans ?_)
  simp only [Percent.exists_encode_eq_ok_iff, not_exists, not_and]

/-- So are the pairs of an association, keys and values alike. -/
theorem exists_renderAssoc_eq_ok_iff (pairs : Assoc) :
    (∃ s, v.renderAssoc o pairs = .ok s) ↔
      ¬ ∃ p ∈ pairs.entries, p.1.HasSurrogate ∨ p.2.HasSurrogate := by
  refine exists_bind_pure_eq_ok_iff.trans (exists_mapM_eq_ok_iff.trans ?_)
  simp only [exists_encodePair_eq_ok_iff, not_exists, not_and]

/-- An item that has a shape and members is written just if no prefix is asked of a collection
and there is no surrogate to write. -/
theorem exists_render_eq_ok_iff {i : Item β} (hshape : i.isShaped = true)
    (hdef : i.isDefined = true) :
    (∃ s, v.render o i = .ok s) ↔ ¬ (v.CutsCollection i ∨ v.WritesSurrogate i) := by
  -- a prefix is only looked at for collections, and there before anything is encoded
  cases i with
  | atom t =>
    simp only [render_atom_eq_ok, exists_renderAtom_eq_ok_iff, CutsCollection, WritesSurrogate,
      false_or]
  | list ts =>
    have hne : ts ≠ [] := by simpa [Item.isDefined] using hdef
    simp only [render_list_eq_ok, exists_and_left, exists_renderList_eq_ok_iff, CutsCollection,
      WritesSurrogate, hne, ne_eq, not_false_eq_true, and_true, not_or, Decidable.not_not]
  | assoc pairs =>
    have hne : pairs.entries ≠ [] := by simpa [Item.isDefined] using hdef
    simp only [render_assoc_eq_ok, exists_and_left, exists_renderAssoc_eq_ok_iff, CutsCollection,
      WritesSurrogate, hne, ne_eq, not_false_eq_true, and_true, not_or, Decidable.not_not]
  | bare value => cases hshape

/-- Nothing is wrong with an item that is not defined. -/
theorem isDefined_of_fails {i : Item β} (h : v.CutsCollection i ∨ v.WritesSurrogate i) :
    i.isDefined = true := by
  -- something has to be cut or written, so a collection in question has members
  cases i with
  | atom t => rfl
  | list ts =>
    rcases h with h | ⟨t, ht, -⟩
    · simpa [Item.isDefined] using h.2
    · simpa [Item.isDefined] using List.ne_nil_of_mem ht
  | assoc pairs =>
    rcases h with h | ⟨p, hp, -⟩
    · simpa [Item.isDefined] using h.2
    · simpa [Item.isDefined] using List.ne_nil_of_mem hp
  | bare value => rfl

/-- An item that has a shape is never refused for having none. -/
theorem render_ne_shapeless {i : Item β} (h : v.CutsCollection i ∨ v.WritesSurrogate i) :
    v.render o i ≠ .error .shapeless := by
  intro hrun
  -- each shape has refusals of its own
  cases i with
  | atom t =>
    obtain ⟨_, -, hcause⟩ := mapError_eq_error.mp hrun
    cases hcause
  | list ts =>
    simp only [render] at hrun
    split at hrun
    · cases hrun
    · obtain ⟨_, -, hcause⟩ := mapError_eq_error.mp hrun
      cases hcause
  | assoc pairs =>
    simp only [render] at hrun
    split at hrun
    · cases hrun
    · obtain ⟨_, -, hcause⟩ := mapError_eq_error.mp hrun
      cases hcause
  | bare value => exact h.elim id id

/-- Where names are bound to items of the three shapes, a variable is expanded just if its item
can be written. -/
theorem exists_expand?_eq_ok_iff {look : Text → Binding β}
    (hshape : (look v.name.text).IsShaped) :
    (∃ text?, v.expand? look o = .ok text?) ↔ ¬ v.Fails look := by
  -- both ways the item decides: whether there is one, whether it is defined, and whether it is
  -- written
  constructor
  · rintro ⟨text?, htext⟩ ⟨i, hi, hfail⟩
    have hdef := isDefined_of_fails hfail
    rcases expand?_eq_ok.mp htext with ⟨hnone, -⟩ | ⟨j, hj, ⟨hundef, -⟩ | ⟨-, s, hs, -⟩⟩
    · rw [hi] at hnone
      cases hnone
    · rw [hi] at hj
      cases hj
      rw [hdef] at hundef
      cases hundef
    · rw [hi] at hj hshape
      cases hj
      exact (exists_render_eq_ok_iff hshape hdef).mp ⟨s, hs⟩ hfail
  · intro hok
    cases hi : look v.name.text with
    | unbound => exact ⟨none, expand?_eq_ok.mpr (.inl ⟨hi, rfl⟩)⟩
    | foreign =>
      rw [hi] at hshape
      cases hshape
    | item i =>
      rw [hi] at hshape
      cases hdef : i.isDefined with
      | false => exact ⟨none, expand?_eq_ok.mpr (.inr ⟨i, hi, .inl ⟨hdef, rfl⟩⟩)⟩
      | true =>
        obtain ⟨s, hs⟩ := (exists_render_eq_ok_iff (o := o) hshape hdef).mpr
          fun hfail => hok ⟨i, hi, hfail⟩
        exact ⟨some s, expand?_eq_ok.mpr (.inr ⟨i, hi, .inr ⟨hdef, s, hs, rfl⟩⟩)⟩

/-- The error of a variable is that of writing its item. -/
theorem expand?_eq_error {look : Text → Binding β} (hshape : (look v.name.text).IsShaped)
    {e : ExpansionError} (h : v.expand? look o = .error e) :
    ∃ i cause, look v.name.text = .item i ∧ v.render o i = .error cause ∧
      e = .rendering v.name.text cause := by
  -- a name without an item is no failure, and an item fails when it is written
  unfold expand? at h
  split at h
  · cases h
  · next hforeign =>
    rw [hforeign] at hshape
    cases hshape
  · next i hi =>
    split at h
    · obtain ⟨cause, hcause, rfl⟩ := mapError_eq_error.mp h
      exact ⟨i, cause, hi, map_eq_error.mp hcause, rfl⟩
    · cases h

/-! ## Prefix lengths -/

/-- A prefix length is let through just if it is not beyond the limit. -/
theorem checkLimit_eq_ok_iff :
    v.checkLimit = .ok () ↔ ∀ n, v.limit? = some n → n ≤ 9999 := by
  unfold checkLimit greatestLimit
  -- without a length there is nothing to check
  cases v.limit? with
  | none => simp
  | some n =>
    by_cases hn : 9999 < n
    · simp [hn]
    · simp [Nat.le_of_not_lt hn]

/-- Otherwise the refusal names the variable and shows the length. -/
theorem checkLimit_eq_error {e : ExpansionError} (h : v.checkLimit = .error e) :
    ∃ n, v.limit? = some n ∧ 9999 < n ∧
      e = (ExpansionError.limitTooLarge v.name.text n).showing [v] := by
  unfold checkLimit greatestLimit at h
  split at h
  · next n hn =>
    split at h
    · next hlarge =>
      cases h
      exact ⟨n, hn, hlarge, rfl⟩
    · cases h
  · cases h

end VarSpec

/-- A refusal is worded where the prefix lengths that it shows can be written. -/
theorem ExpansionError.showing_of_isReadable {specs : List VarSpec}
    (h : ∀ v ∈ specs, v.IsReadable) (e : ExpansionError) : e.showing specs = e := by
  have hall : specs.all VarSpec.isWritable = true :=
    List.all_eq_true.mpr fun v hv => VarSpec.isWritable_iff.mpr (h v hv)
  rw [showing, if_pos hall]

/-! ## Expressions and templates -/

namespace Expression

variable {e : Expression} {look : Text → Binding β}

/-- An expression is let through by its operator and its prefix lengths alone. -/
theorem check_eq_ok_iff :
    e.check = .ok () ↔ e.effectiveOperator.isReserved = false ∧
      ∀ v ∈ e.specs, ∀ n, v.limit? = some n → n ≤ 9999 := by
  unfold check
  split
  · next hop => simp [hop]
  · next hop => simp only [forM_eq_ok_iff, VarSpec.checkLimit_eq_ok_iff, hop, true_and]

/-- An expression is expanded just if there is no reason against it. -/
theorem exists_expand_eq_ok_iff (hshape : ∀ name, (look name).IsShaped) :
    (∃ s, e.expand look = .ok s) ↔ ¬ e.CannotExpand look := by
  constructor
  · intro ⟨s, hs⟩ hfail
    obtain ⟨hcheck, texts, htexts, -⟩ := expand_eq_ok.mp hs
    obtain ⟨hop, hlimits⟩ := check_eq_ok_iff.mp hcheck
    have hvariables : ∀ v ∈ e.specs, ¬ v.Fails look := fun v hv =>
      (VarSpec.exists_expand?_eq_ok_iff (hshape _)).mp
        (exists_mapM_eq_ok_iff.mp ⟨texts, htexts⟩ v hv)
    -- each reason contradicts what a successful run has checked or written
    cases hfail with
    | reserved hreserved =>
      rw [hop] at hreserved
      cases hreserved
    | limit v n hv hn hlarge =>
      have := hlimits v hv n hn
      omega
    | collection v i hv hi hcut => exact hvariables v hv ⟨i, hi, .inl hcut⟩
    | surrogate v i hv hi hwrite => exact hvariables v hv ⟨i, hi, .inr hwrite⟩
  · intro hok
    have hcheck : e.check = .ok () := by
      refine check_eq_ok_iff.mpr ⟨?_, fun v hv n hn => ?_⟩
      · cases hop : e.effectiveOperator.isReserved with
        | false => rfl
        | true => exact absurd (.reserved hop) hok
      · by_cases hle : n ≤ 9999
        · exact hle
        · exact absurd (.limit v n hv hn (Nat.lt_of_not_le hle)) hok
    -- no variable fails, so that the pass over them succeeds
    obtain ⟨texts, htexts⟩ : ∃ texts,
        e.specs.mapM (VarSpec.expand? look e.effectiveOperator) = .ok texts := by
      refine exists_mapM_eq_ok_iff.mpr fun v hv => ?_
      refine (VarSpec.exists_expand?_eq_ok_iff (hshape _)).mpr ?_
      rintro ⟨i, hi, hcut | hwrite⟩
      · exact hok (.collection v i hv hi hcut)
      · exact hok (.surrogate v i hv hi hwrite)
    exact ⟨_, expand_eq_ok.mpr ⟨hcheck, texts, htexts, rfl⟩⟩

/-- Where the prefix lengths can be written, the error of an expression is the refusal that
comes first. -/
theorem refusal_of_expand_eq_error (hshape : ∀ name, (look name).IsShaped)
    (hread : ∀ v ∈ e.specs, v.IsReadable) {err : ExpansionError}
    (h : e.expand look = .error err) : e.Refusal look err := by
  unfold expand at h
  -- the checks come before the variables, and the operator before the lengths
  rcases bind_eq_error.mp h with hcheck | ⟨_, hcheck, hrest⟩
  · unfold check at hcheck
    split at hcheck
    · next hop =>
      cases hcheck
      rw [ExpansionError.showing_of_isReadable hread]
      exact .reserved hop
    · next hop =>
      obtain ⟨vs, v, ws, hfirst⟩ := firstFails_of_forM_eq_error hcheck
      obtain ⟨n, hn, hlarge, rfl⟩ := VarSpec.checkLimit_eq_error hfirst.fails
      have hv : v ∈ e.specs := by simp [hfirst.split]
      rw [ExpansionError.showing_of_isReadable (by simpa using hread v hv)]
      refine .limit vs ws v n (by simpa using hop) hfirst.split (fun u hu => ?_) hn hlarge
      obtain ⟨_, hu⟩ := hfirst.before u hu
      exact VarSpec.checkLimit_eq_ok_iff.mp hu
  · obtain ⟨hop, hlimits⟩ := check_eq_ok_iff.mp hcheck
    rcases bind_eq_error.mp hrest with htexts | ⟨texts, -, hpure⟩
    · obtain ⟨vs, v, ws, hfirst⟩ := firstFails_of_mapM_eq_error htexts
      obtain ⟨i, cause, hi, hcause, rfl⟩ := VarSpec.expand?_eq_error (hshape _) hfirst.fails
      refine .unwritable vs ws v i cause hop hlimits hfirst.split (fun u hu => ?_) ?_ hi hcause
      · exact (VarSpec.exists_expand?_eq_ok_iff (hshape _)).mp (hfirst.before u hu)
      · -- a variable that does not fail would have been expanded
        refine Classical.byContradiction fun hok => ?_
        obtain ⟨_, htext⟩ := (VarSpec.exists_expand?_eq_ok_iff (hshape _)).mpr hok
        exact absurd htext (ne_ok_of_eq_error hfirst.fails)
    · exact absurd hpure pure_ne_error

/-- A refusal is an error of expansion: no variable without a shape is involved. -/
theorem Refusal.kind_eq {err : ExpansionError} (h : e.Refusal look err) :
    (Fault.expansion err).kind = .expansion := by
  cases h with
  | reserved hop => rfl
  | limit vs ws v n hop hspecs hvs hn hlarge => rfl
  | unwritable vs ws v i cause hop hlimits hspecs hvs hfails hi hcause =>
    -- the item has a reason to fail, and a missing shape is none
    obtain ⟨j, hj, hfail⟩ := hfails
    rw [hi] at hj
    cases hj
    have hne := VarSpec.render_ne_shapeless hfail (o := e.effectiveOperator)
    rw [hcause] at hne
    cases cause with
    | shapeless => exact absurd rfl hne
    | limitOnCollection kind => rfl
    | unencodable cause => rfl
    | unsupported value => rfl

end Expression

namespace Template

variable {look : Text → Binding β}

/-- A template is expanded just if all of its expressions are. -/
theorem exists_expand_eq_ok_iff (hshape : ∀ name, (look name).IsShaped) (ps : List Part) :
    (∃ s, Template.expand look ⟨ps⟩ = .ok s) ↔
      ∀ e ∈ Template.expressions ⟨ps⟩, ¬ e.CannotExpand look := by
  induction ps with
  | nil => exact ⟨fun _ => List.forall_mem_nil _, fun _ => ⟨[], expand_nil look⟩⟩
  | cons p ps ih =>
    rw [expand_cons]
    -- a literal is never in the way
    cases p with
    | literal l => exact exists_bind_pure_eq_ok_iff.trans ih
    | expression e =>
      rw [expressions_expression, List.forall_mem_cons, ← ih,
        ← Expression.exists_expand_eq_ok_iff hshape]
      constructor
      · intro ⟨_, h⟩
        obtain ⟨s, hs, hrest⟩ := bind_eq_ok.mp h
        obtain ⟨t, ht, -⟩ := bind_eq_ok.mp hrest
        exact ⟨⟨s, hs⟩, t, ht⟩
      · intro ⟨⟨s, hs⟩, t, ht⟩
        exact ⟨s ++ t, bind_eq_ok.mpr ⟨s, hs, bind_eq_ok.mpr ⟨t, ht, rfl⟩⟩⟩

/-- The error of a template is that of its first expression that cannot be expanded. -/
theorem exists_of_expand_eq_error (hshape : ∀ name, (look name).IsShaped) {t : Template}
    {err : ExpansionError} (h : t.expand look = .error err) :
    ∃ ps e qs, t.parts = ps ++ .expression e :: qs ∧
      (∀ e' ∈ Template.expressions ⟨ps⟩, ¬ e'.CannotExpand look) ∧ e.expand look = .error err := by
  obtain ⟨ps, p, qs, hfirst⟩ := firstFails_of_mapM_eq_error (map_eq_error.mp h)
  -- the first part that fails is no literal
  cases p with
  | literal l => cases hfirst.fails
  | expression e =>
    refine ⟨ps, e, qs, hfirst.split, ?_, hfirst.fails⟩
    refine (exists_expand_eq_ok_iff hshape ps).mp ?_
    exact exists_map_eq_ok_iff.mpr (exists_mapM_eq_ok_iff.mpr hfirst.before)

/-- Where the prefix lengths can be written, a template fails with an error of expansion. -/
theorem kind_of_expand_eq_error (hshape : ∀ name, (look name).IsShaped) {t : Template}
    (hread : t.IsReadable) {err : ExpansionError} (h : t.expand look = .error err) :
    (Fault.expansion err).kind = .expansion := by
  obtain ⟨ps, e, qs, hparts, -, he⟩ := exists_of_expand_eq_error hshape h
  have hmem : e ∈ t.expressions := List.mem_filterMap.mpr ⟨.expression e, by simp [hparts], rfl⟩
  exact (Expression.refusal_of_expand_eq_error hshape (hread e hmem) he).kind_eq

end Template

/-! ## Contexts -/

/-- Names are bound to single texts, lists and associations alone. -/
def Context.IsShaped (c : Context) : Prop := ∀ e ∈ c.entries, e.2.isShaped = true

instance (c : Context) : Decidable c.IsShaped :=
  inferInstanceAs (Decidable (∀ e ∈ c.entries, e.2.isShaped = true))

/-- A name is looked up among the entries, and those have shapes. -/
theorem Context.isShaped_look {c : Context} (h : c.IsShaped) (name : Text) :
    (c.look name).IsShaped := by
  unfold look
  split
  · next i hi =>
    obtain ⟨k, hmem⟩ := Entries.exists_mem_of_get? hi
    exact h _ hmem
  · trivial

/-- An expansion fails just if there is a reason against one of the expressions, and it fails
with an error of expansion: the refusal that comes first in the first such expression.  Prefix
lengths have to be short enough to be written. -/
theorem Value.expandTemplate_fails_iff (t : Template) (c : Context) (hshape : c.IsShaped)
    (hread : t.IsReadable) :
    ((∃ f, Value.expandTemplate t c.toValue = .error f ∧ f.kind = .expansion) ↔
        ∃ e ∈ t.expressions, e.CannotExpand c.look) ∧
      ((∃ s, Value.expandTemplate t c.toValue = .ok s) ↔
        ¬ ∃ e ∈ t.expressions, e.CannotExpand c.look) ∧
      ∀ f, Value.expandTemplate t c.toValue = .error f → f.kind = .expansion ∧
        ∃ ps e qs err, f = .expansion err ∧ t.parts = ps ++ .expression e :: qs ∧
          (∀ e' ∈ Template.expressions ⟨ps⟩, ¬ e'.CannotExpand c.look) ∧
          e.Refusal c.look err := by
  have hlook := Context.isShaped_look hshape
  have hexpand : Value.expandTemplate t c.toValue = (t.expand c.look).mapError .expansion := rfl
  have hok : (∃ s, Value.expandTemplate t c.toValue = .ok s) ↔
      ¬ ∃ e ∈ t.expressions, e.CannotExpand c.look := by
    simp only [hexpand, mapError_eq_ok]
    rw [Template.exists_expand_eq_ok_iff hlook t.parts]
    simp only [not_exists, not_and]
  -- the error names the part, the parts in front of it, and the reason that came first in it
  have herror : ∀ f, Value.expandTemplate t c.toValue = .error f → f.kind = .expansion ∧
      ∃ ps e qs err, f = .expansion err ∧ t.parts = ps ++ .expression e :: qs ∧
        (∀ e' ∈ Template.expressions ⟨ps⟩, ¬ e'.CannotExpand c.look) ∧ e.Refusal c.look err := by
    intro f hf
    obtain ⟨err, herr, rfl⟩ := mapError_eq_error.mp hf
    obtain ⟨ps, e, qs, hparts, hps, he⟩ := Template.exists_of_expand_eq_error hlook herr
    have hmem : e ∈ t.expressions := List.mem_filterMap.mpr ⟨.expression e, by simp [hparts], rfl⟩
    have hrefusal := Expression.refusal_of_expand_eq_error hlook (hread e hmem) he
    exact ⟨hrefusal.kind_eq, ps, e, qs, err, rfl, hparts, hps, hrefusal⟩
  -- a run that fails does not succeed, and one that does not succeed fails in this way
  refine ⟨⟨fun ⟨f, hf, _⟩ => ?_, fun hfail => ?_⟩, hok, herror⟩
  · refine Classical.byContradiction fun hno => ?_
    obtain ⟨s, hs⟩ := hok.mpr hno
    exact absurd hs (ne_ok_of_eq_error hf)
  · cases hrun : Value.expandTemplate t c.toValue with
    | ok s => exact absurd hfail (hok.mp ⟨s, hrun⟩)
    | error f => exact ⟨f, rfl, (herror f hrun).1⟩

/-- A surrogate that the prefix cuts off does no harm, and the prefix of the list behind it is
refused. -/
theorem Value.expandTemplate_fails_hidden :
    ∃ (t : Template) (c : Context),
      t.format = "{x:2}{l:1}".toText ∧
        c.look "x".toText = .item (.atom [.scalar 'a', .scalar 'b', .surrogate 0]) ∧
        c.look "l".toText = .item (.list ["c".toText]) ∧ c.IsShaped ∧ t.IsReadable ∧
        ∃ f, Value.expandTemplate t c.toValue = .error f ∧ f.kind = .expansion := by
  let l : VarSpec := ⟨⟨"l".toText, by decide⟩, some (.limit ⟨1, by decide⟩)⟩
  let t : Template :=
    ⟨[.expression ⟨[⟨⟨"x".toText, by decide⟩, some (.limit ⟨2, by decide⟩)⟩], none, by decide⟩,
      .expression ⟨[l], none, by decide⟩]⟩
  let c : Context :=
    ⟨[(.text "x".toText, .atom [.scalar 'a', .scalar 'b', .surrogate 0]),
      (.text "l".toText, .list ["c".toText])]⟩
  have hx : c.look "x".toText = .item (.atom [.scalar 'a', .scalar 'b', .surrogate 0]) := rfl
  have hl : c.look "l".toText = .item (.list ["c".toText]) := rfl
  have hshape : c.IsShaped := by decide
  have hread : t.IsReadable := by decide
  -- the prefix of the list is what is refused
  have hfail : Expression.CannotExpand c.look ⟨[l], none, by decide⟩ :=
    .collection l _ (by decide) hl ⟨by decide, by decide⟩
  have herror := (Value.expandTemplate_fails_iff t c hshape hread).1.mpr
    ⟨_, List.mem_cons_of_mem _ List.mem_cons_self, hfail⟩
  exact ⟨t, c, by decide, hx, hl, hshape, hread, herror⟩

/-! ## Lengths that cannot be written -/

/-- The greatest length that is not refused can be written. -/
theorem lt_of_oversized {n : Nat} (hlong : Nat.pow 10 Text.digitLimit ≤ n) : greatestLimit < n :=
  Nat.lt_of_lt_of_le (by decide +kernel) hlong

/-- A prefix length with too many digits is refused by an error that is not one of expansion. -/
theorem VarSpec.checkLimit_of_not_isWritable {v : VarSpec} (h : v.isWritable = false) :
    v.checkLimit = .error .oversizedLength := by
  have hlimit : ∃ n, v.limit? = some n ∧ Nat.pow 10 Text.digitLimit ≤ n := by
    unfold isWritable at h
    split at h
    · next n hn => exact ⟨n, hn, Nat.le_of_not_lt (of_decide_eq_false h)⟩
    · cases h
  -- such a length is beyond the limit as well
  obtain ⟨n, hn, hlong⟩ := hlimit
  simp only [checkLimit, hn, if_pos (lt_of_oversized hlong)]
  rw [ExpansionError.showing, if_neg (by simp [h])]

/-- So is an expression that begins with it. -/
theorem Expression.expand_of_oversized {look : Text → Binding β} {e : Expression} {v : VarSpec}
    {ws : List VarSpec} {n : Nat} (hop : e.effectiveOperator.isReserved = false)
    (hspecs : e.specs = v :: ws) (hn : v.limit? = some n)
    (hlong : Nat.pow 10 Text.digitLimit ≤ n) : e.expand look = .error .oversizedLength := by
  have hwritable : v.isWritable = false := by
    simp only [VarSpec.isWritable, hn, decide_eq_false_iff_not]
    exact Nat.not_lt_of_le hlong
  have hcheck : e.check = .error .oversizedLength := by
    rw [check, if_neg (by simp [hop]), hspecs]
    exact (FirstFails.head (VarSpec.checkLimit_of_not_isWritable hwritable)).forM_eq
  exact bind_eq_error.mpr (.inl hcheck)

/-- There is a reason against the expression, but the error is not one of expansion. -/
theorem Value.expandTemplate_oversized :
    ∃ (t : Template) (e : Expression) (v : VarSpec),
      t.parts = [.expression e] ∧ e.operator = none ∧ e.specs = [v] ∧
        v.limit? = some (Nat.pow 10 Text.digitLimit) ∧
        e.CannotExpand Context.empty.look ∧
        ∃ f, Value.expandTemplate t Context.empty.toValue = .error f ∧ f.kind = .value := by
  -- only that the length is large matters, and not its digits
  obtain ⟨n, hpow⟩ : ∃ n, n = Nat.pow 10 Text.digitLimit := ⟨_, rfl⟩
  have hlong : Nat.pow 10 Text.digitLimit ≤ n := Nat.le_of_eq hpow.symm
  have hlarge : 9999 < n := lt_of_oversized hlong
  let v : VarSpec := ⟨⟨"x".toText, by decide⟩, some (.limit ⟨n, by omega⟩)⟩
  let e : Expression := ⟨[v], none, List.cons_ne_nil _ _⟩
  have hfail : e.CannotExpand Context.empty.look := .limit v n List.mem_cons_self rfl hlarge
  have hexpand : e.expand Context.empty.look = .error .oversizedLength :=
    Expression.expand_of_oversized rfl rfl rfl hlong
  -- the expression is the first part, so that the template fails with it
  have hwhole : Template.expand Context.empty.look ⟨[.expression e]⟩ =
      .error .oversizedLength := by
    rw [Template.expand_cons]
    exact bind_eq_error.mpr (.inl hexpand)
  exact ⟨⟨[.expression e]⟩, e, v, rfl, rfl, rfl, congrArg some hpow, hfail,
    .expansion .oversizedLength, mapError_eq_error.mpr ⟨_, hwhole, rfl⟩, rfl⟩

end UriTemplate
