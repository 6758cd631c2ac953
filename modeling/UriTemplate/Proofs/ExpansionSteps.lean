import UriTemplate.Value.Expansion
import UriTemplate.Proofs.Runs

/-!
# Steps of an expansion

When an item, a variable, an expression and a template are expanded, and to what.  Proofs
about expansions take a run apart with these lemmas, level by level, and go by induction on
the lists of parts and of variables.
-/

namespace UriTemplate

variable {β : Type}

/-! ## Operators -/

/-- What holds of the registered operators with certain symbols holds of the operator that is
found by one of them. -/
theorem Operator.of_ofSymbol? {P : Operator → Prop} {symbols : List Char} {symbol : Char}
    {o : Operator}
    (htable : ∀ r ∈ registered, r.symbol ∈ symbols.map (fun c => [CodePoint.scalar c]) → P r)
    (hsymbol : symbol ∈ symbols) (ho : ofSymbol? [.scalar symbol] = some o) : P o := by
  refine htable o (List.mem_of_find?_eq_some ho) ?_
  rw [symbol_of_ofSymbol? ho]
  exact List.mem_map_of_mem hsymbol

/-! ## Variables and expressions -/

namespace VarSpec

variable {v : VarSpec} {o : Operator} {s : Text}

/-- A single text is written with or without a prefix length. -/
theorem render_atom_eq_ok {t : Text} :
    v.render o (.atom t : Item β) = .ok s ↔ v.renderAtom o t = .ok s :=
  mapError_eq_ok

/-- A list is written if no prefix of it is asked for. -/
theorem render_list_eq_ok {ts : List Text} :
    v.render o (.list ts : Item β) = .ok s ↔ v.limit? = none ∧ v.renderList o ts = .ok s := by
  simp only [render]
  cases v.limit? with
  | none => simp [mapError_eq_ok]
  | some n => simp

/-- An association is written if no prefix of it is asked for. -/
theorem render_assoc_eq_ok {pairs : Assoc} :
    v.render o (.assoc pairs : Item β) = .ok s ↔
      v.limit? = none ∧ v.renderAssoc o pairs = .ok s := by
  simp only [render]
  cases v.limit? with
  | none => simp [mapError_eq_ok]
  | some n => simp

/-- A bare item is not written. -/
theorem render_bare_ne_ok {value : β} : v.render o (.bare value) ≠ .ok s := by
  simp only [render]
  cases v.limit? with
  | none => simp
  | some n => simp

/-- A variable that is not defined leaves no text, and one that is defined that of its item. -/
theorem expand?_eq_ok {look : Text → Binding β} {text? : Option Text} :
    v.expand? look o = .ok text? ↔
      (look v.name.text = .unbound ∧ text? = none) ∨
        ∃ i, look v.name.text = .item i ∧
          ((i.isDefined = false ∧ text? = none) ∨
            (i.isDefined = true ∧ ∃ s, v.render o i = .ok s ∧ text? = some s)) := by
  constructor
  · intro h
    unfold expand? at h
    split at h
    · -- unbound: the variable leaves nothing
      next hlook =>
      cases h
      exact .inl ⟨hlook, rfl⟩
    · cases h
    · -- bound to an item, which may count as undefined
      next i hlook =>
      refine .inr ⟨i, hlook, ?_⟩
      split at h
      · next hdef =>
        obtain ⟨s, hs, rfl⟩ := map_eq_ok.mp (mapError_eq_ok.mp h)
        exact .inr ⟨hdef, s, hs, rfl⟩
      · next hdef =>
        cases h
        exact .inl ⟨by simpa using hdef, rfl⟩
  · intro h
    rcases h with ⟨hlook, rfl⟩ | ⟨i, hlook, ⟨hdef, rfl⟩ | ⟨hdef, s, hs, rfl⟩⟩
    · simp only [expand?, hlook]
    · simp [expand?, hlook, hdef]
    · simp only [expand?, hlook, if_pos hdef, hs]
      rfl

end VarSpec

/-- An expression that is not refused is expanded variable by variable. -/
theorem Expression.expand_eq_ok {look : Text → Binding β} {e : Expression} {s : Text} :
    e.expand look = .ok s ↔
      e.check = .ok () ∧
        ∃ texts, e.specs.mapM (VarSpec.expand? look e.effectiveOperator) = .ok texts ∧
          s = e.effectiveOperator.join (texts.filterMap id) := by
  simp only [expand, bind_eq_ok, pure_eq_ok]
  constructor
  · intro ⟨_, hcheck, texts, htexts, hs⟩
    exact ⟨hcheck, texts, htexts, hs.symm⟩
  · intro ⟨hcheck, texts, htexts, hs⟩
    exact ⟨(), hcheck, texts, htexts, hs.symm⟩

/-- An expression with a single variable. -/
def Expression.ofVariable (op : Option Operator) (v : VarSpec) : Expression :=
  ⟨[v], op, List.cons_ne_nil _ _⟩

/-- A variable that is bound to a single text is expanded to what is left of the text, encoded. -/
theorem Expression.expand_ofVariable {look : Text → Binding β} {op : Option Operator}
    {o : Operator} {v : VarSpec} {t s : Text} (ho : op.getD .simple = o)
    (hcheck : (ofVariable op v).check = .ok ()) (hlook : look v.name.text = .item (.atom t))
    (hs : Percent.encode o.allowReserved (v.cut t) = .ok s) :
    (ofVariable op v).expand look = .ok (o.first ++ o.withName v.name.text s) := by
  have hrender : v.render o (.atom t : Item β) = .ok (o.withName v.name.text s) :=
    VarSpec.render_atom_eq_ok.mpr (bind_eq_ok.mpr ⟨s, hs, rfl⟩)
  -- a single text counts as defined, even if it is empty
  have hvariable : v.expand? look o = .ok (some (o.withName v.name.text s)) :=
    VarSpec.expand?_eq_ok.mpr (.inr ⟨_, hlook, .inr ⟨rfl, _, hrender, rfl⟩⟩)
  subst ho
  refine expand_eq_ok.mpr ⟨hcheck, _, mapM_cons_eq_ok.mpr ⟨_, [], hvariable, rfl, rfl⟩, ?_⟩
  exact congrArg _ List.intercalate_singleton.symm

/-- An expression with an operator that is set aside is refused. -/
theorem Expression.isReserved_of_check {e : Expression} (h : e.check = .ok ()) :
    e.effectiveOperator.isReserved = false := by
  unfold check at h
  split at h
  · cases h
  · next hreserved => simpa using hreserved

/-! ## Joined texts -/

/-- The texts of two lists are joined behind one another, with the separator between them. -/
theorem intercalate_append {sep : Text} {ts us : List Text} (hts : ts ≠ []) (hus : us ≠ []) :
    sep.intercalate (ts ++ us) = sep.intercalate ts ++ sep ++ sep.intercalate us := by
  induction ts with
  | nil => exact absurd rfl hts
  | cons t ts ih =>
    cases ts with
    | nil =>
      -- the separator stands between the last text of the one and the first one of the other
      rw [List.singleton_append, List.intercalate_cons_of_ne_nil hus, List.intercalate_singleton]
    | cons t' ts =>
      have htail := ih (List.cons_ne_nil t' ts)
      rw [List.cons_append] at htail
      rw [List.cons_append, List.cons_append, List.intercalate_cons_cons, htail,
        List.intercalate_cons_cons]
      simp only [List.append_assoc]

/-! ## Templates -/

namespace Template

/-- A template without parts expands to nothing. -/
theorem expand_nil (look : Text → Binding β) : expand look ⟨[]⟩ = .ok [] := rfl

/-- A template is expanded part by part. -/
theorem expand_cons (look : Text → Binding β) (p : Part) (ps : List Part) :
    expand look ⟨p :: ps⟩ = (do
      let s ← p.expand look
      let t ← expand look ⟨ps⟩
      return s ++ t) := by
  simp only [expand, List.mapM_cons]
  cases p.expand look with
  | error e => rfl
  | ok s =>
    cases ps.mapM (Part.expand look) with
    | error e => rfl
    | ok ts => rfl

/-- The template of a single expression. -/
def ofExpression (e : Expression) : Template := ⟨[.expression e]⟩

/-- It expands to what the expression expands to. -/
theorem expand_ofExpression (look : Text → Binding β) (e : Expression) :
    (ofExpression e).expand look = e.expand look := by
  rw [ofExpression, expand_cons, expand_nil, Part.expand]
  cases e.expand look with
  | error e => rfl
  | ok s => exact congrArg Except.ok (List.append_nil s)

end Template

/-- In a context, a single expression is expanded as a template. -/
theorem Value.expandTemplate_ofExpression (c : Context) (e : Expression) :
    Value.expandTemplate (.ofExpression e) c.toValue = (e.expand c.look).mapError .expansion := by
  rw [← Template.expand_ofExpression]
  rfl

end UriTemplate
