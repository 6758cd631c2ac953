import UriTemplate.Proofs.Refusals
import UriTemplate.Proofs.SequentialExpansion
import Mathlib.Data.List.Induction

/-!
# The variables of a template

The names that a template lists (`Template.variableNames`) are those of the variables in its
expressions, each once, in the order of their first appearance.  They are what an expansion
reads: contexts that bind them alike have the same outcome (`Template.expand_congr`), and where
an expansion is not refused for the template's own sake, each of the names matters
(`Template.expand_marking`).

That a name matters is seen by counting characters.  Binding nothing leaves the literals alone,
and binding the name alone makes the text longer wherever the name stands.
-/

namespace UriTemplate

/-! ## The names -/

namespace Template

/-- The names of the variables as they appear, one after the other. -/
def occurrences (t : Template) : List Text :=
  t.expressions.flatMap fun e => e.specs.map (·.name.text)

/-- A name appears just if it is that of a variable in an expression. -/
theorem mem_occurrences_iff {t : Template} {n : Text} :
    n ∈ t.occurrences ↔ ∃ e ∈ t.expressions, ∃ v ∈ e.specs, v.name.text = n := by
  simp only [occurrences, List.mem_flatMap, List.mem_map]

/-- One more name is added at the end, unless it has been seen. -/
theorem addNew_append_singleton (names : List Text) (n : Text) :
    addNew [] (names ++ [n]) =
      if (addNew [] names).contains n then addNew [] names else addNew [] names ++ [n] := by
  rw [addNew, List.foldl_append]
  rfl

/-- Nothing is added but the names, and none of them is left out. -/
theorem mem_addNew_iff {names : List Text} {n : Text} : n ∈ addNew [] names ↔ n ∈ names := by
  -- names are added from the front, so the induction takes the last one off
  induction names using List.reverseRecOn with
  | nil => exact Iff.rfl
  | append_singleton names m ih =>
    rw [addNew_append_singleton, List.mem_append, List.mem_singleton, ← ih]
    split
    · next hm =>
      -- a name that was seen before adds nothing
      have hmem : m ∈ addNew [] names := List.contains_iff_mem.mp hm
      constructor
      · exact .inl
      · intro h
        rcases h with h | rfl
        · exact h
        · exact hmem
    · rw [List.mem_append, List.mem_singleton]

/-- Names are added in the order of their first appearance. -/
theorem pairwise_addNew (names : List Text) :
    (addNew [] names).Pairwise fun m n => names.idxOf m < names.idxOf n := by
  -- from the end, where the last name either is known or comes last
  induction names using List.reverseRecOn with
  | nil => exact .nil
  | append_singleton names n ih =>
    -- a name that appeared before appears first where it did before
    have hkeep : ∀ m ∈ addNew [] names, (names ++ [n]).idxOf m = names.idxOf m := fun m hm =>
      List.idxOf_append_of_mem (mem_addNew_iff.mp hm)
    have hold : (addNew [] names).Pairwise fun m m' =>
        (names ++ [n]).idxOf m < (names ++ [n]).idxOf m' := by
      refine ih.imp_of_mem fun hm hm' hlt => ?_
      rw [hkeep _ hm, hkeep _ hm']
      exact hlt
    rw [addNew_append_singleton]
    split
    · exact hold
    · next hn =>
      have hnew : n ∉ names := by
        rw [← mem_addNew_iff]
        simpa using hn
      refine List.pairwise_append.mpr ⟨hold, List.pairwise_singleton _ _, fun m hm m' hm' => ?_⟩
      -- the new name stands at the end
      rw [List.mem_singleton.mp hm', hkeep m hm, List.idxOf_append_of_notMem hnew]
      have hlt := List.idxOf_lt_length_iff.mpr (mem_addNew_iff.mp hm)
      omega

/-- A name that is listed is that of a variable in an expression. -/
theorem mem_variableNames_iff {t : Template} {n : Text} :
    n ∈ t.variableNames ↔ ∃ e ∈ t.expressions, ∃ v ∈ e.specs, v.name.text = n := by
  rw [← mem_occurrences_iff]
  exact mem_addNew_iff

/-- The names are listed in the order of their first appearance. -/
theorem pairwise_variableNames (t : Template) :
    t.variableNames.Pairwise fun m n => t.occurrences.idxOf m < t.occurrences.idxOf n :=
  pairwise_addNew t.occurrences

/-- Each name is listed once. -/
theorem nodup_variableNames (t : Template) : t.variableNames.Nodup :=
  t.pairwise_variableNames.imp fun hlt heq => absurd hlt (by rw [heq]; exact Nat.lt_irrefl _)

end Template

/-! ## Names alone are read -/

variable {β : Type}

/-- The name is not bound, or it is bound to an empty collection. -/
def Binding.IsUndefined : Binding β → Prop
  | .unbound => True
  | .item i => i.isDefined = false
  | .foreign => False

/-- The name is bound to the same item, or it is undefined both times. -/
def Binding.Alike (b b' : Binding β) : Prop := b = b' ∨ (b.IsUndefined ∧ b'.IsUndefined)

namespace VarSpec

/-- What is not defined is not written, and fails in no way. -/
theorem expand?_of_isUndefined {look : Text → Binding β} {o : Operator} {v : VarSpec}
    (h : (look v.name.text).IsUndefined) : v.expand? look o = .ok none := by
  unfold expand?
  -- a foreign thing does not count as undefined
  cases hlook : look v.name.text with
  | unbound => rfl
  | item i =>
    rw [hlook] at h
    have hdef : i.isDefined = false := h
    simp [hdef]
  | foreign =>
    rw [hlook] at h
    cases h

/-- A variable reads its own name alone. -/
theorem expand?_congr {look look' : Text → Binding β} {o : Operator} {v : VarSpec}
    (h : (look v.name.text).Alike (look' v.name.text)) : v.expand? look o = v.expand? look' o := by
  -- the same item both times, or nothing to write both times
  rcases h with heq | ⟨hundefined, hundefined'⟩
  · simp only [expand?, heq]
  · rw [expand?_of_isUndefined hundefined, expand?_of_isUndefined hundefined']

end VarSpec

/-- So an expression reads the names of its variables alone. -/
theorem Expression.expand_congr {look look' : Text → Binding β} {e : Expression}
    (h : ∀ v ∈ e.specs, (look v.name.text).Alike (look' v.name.text)) :
    e.expand look = e.expand look' := by
  -- the checks do not depend on what is bound
  have htexts : e.specs.mapM (VarSpec.expand? look e.effectiveOperator) =
      e.specs.mapM (VarSpec.expand? look' e.effectiveOperator) :=
    mapM_congr fun v hv => VarSpec.expand?_congr (h v hv)
  rw [expand, expand, htexts]

/-- An expansion has the same outcome wherever the names of the template are bound alike. -/
theorem Template.expand_congr {look look' : Text → Binding β} {t : Template}
    (h : ∀ n ∈ t.variableNames, (look n).Alike (look' n)) : t.expand look = t.expand look' := by
  have hparts : t.parts.mapM (Part.expand look) = t.parts.mapM (Part.expand look') := by
    refine mapM_congr fun p hp => ?_
    -- a literal reads nothing
    cases p with
    | literal l => rfl
    | expression e =>
      have he : e ∈ t.expressions := List.mem_filterMap.mpr ⟨.expression e, hp, rfl⟩
      exact Expression.expand_congr fun v hv =>
        h _ (mem_variableNames_iff.mpr ⟨e, he, v, hv, rfl⟩)
  rw [expand, expand, hparts]

/-! ## Every name matters -/

/-- The context that binds a single name, to a letter. -/
def Context.marking (n : Text) : Context := ⟨[(.text n, .atom "a".toText)]⟩

namespace Context

/-- The context binds the one name to the letter, and nothing else. -/
theorem look_marking (n m : Text) :
    (marking n).look m = if m = n then .item (.atom "a".toText) else .unbound := by
  by_cases hm : m = n
  · subst hm
    simp [look, marking, Entries.get?]
  · have hne : (n == m) = false := beq_false_of_ne fun h => hm h.symm
    simp [look, marking, Entries.get?, hm, hne]

/-- The two contexts differ in the one name alone. -/
theorem get?_marking {n : Text} {k : Value} (h : (Value.text n == k) = false) :
    empty.entries.get? k = (marking n).entries.get? k := by
  simp [marking, empty, Entries.get?, h]

end Context

/-- With a name or without, the letter is written. -/
theorem Operator.withName_ne_nil (o : Operator) (name : Text) :
    o.withName name "a".toText ≠ [] := by
  unfold withName
  split
  · rw [if_neg (by decide)]
    simp
  · decide

/-- Texts that are not empty are put together to one that is not. -/
theorem Operator.join_ne_nil (o : Operator) {texts : List Text} (hne : texts ≠ [])
    (h : ∀ t ∈ texts, t ≠ []) : o.join texts ≠ [] := by
  obtain ⟨t, ts, rfl⟩ := List.exists_cons_of_ne_nil hne
  rw [join, if_neg hne]
  intro hnil
  have hjoined := (List.append_eq_nil_iff.mp hnil).2
  apply h t List.mem_cons_self
  -- the first text is there in any case
  by_cases hts : ts = []
  · rwa [hts, List.intercalate_singleton] at hjoined
  · rw [List.intercalate_cons_of_ne_nil hts, List.append_assoc] at hjoined
    exact (List.append_eq_nil_iff.mp hjoined).1

/-- The letter is written as it is, since no prefix cuts all of a text. -/
theorem VarSpec.renderAtom_letter (v : VarSpec) (o : Operator) :
    v.renderAtom o "a".toText = .ok (o.withName v.name.text "a".toText) := by
  -- a prefix length is at least one
  have hcut : v.cut "a".toText = "a".toText := by
    have hne : v.cut "a".toText ≠ [] := fun h =>
      absurd ((Sequential.cut_eq_nil_iff v _).mp h) (by decide)
    have hlength : "a".toText.length = 1 := by decide
    unfold cut at hne ⊢
    split at hne
    · next n hn =>
      have hpos : n ≠ 0 := fun hzero => hne (by rw [hzero, List.take_zero])
      exact List.take_of_length_le (by omega)
    · rfl
  have hencode : ∀ allowReserved, Percent.encode allowReserved "a".toText = .ok "a".toText := by
    decide
  rw [renderAtom, hcut, hencode]
  rfl

/-- The text of a variable where a single name is bound to the letter. -/
def VarSpec.marked? (n : Text) (o : Operator) (v : VarSpec) : Option Text :=
  if v.name.text = n then some (o.withName v.name.text "a".toText) else none

/-- The variables with the name are written, and no others are. -/
theorem VarSpec.expand?_marking (n : Text) (o : Operator) (v : VarSpec) :
    v.expand? (Context.marking n).look o = .ok (v.marked? n o) := by
  rw [expand?, Context.look_marking, marked?]
  -- the marked name is written with the letter, and any other is not bound
  by_cases hn : v.name.text = n
  · rw [if_pos hn, if_pos hn]
    simp only [Item.isDefined, if_true, render, renderAtom_letter]
    rfl
  · rw [if_neg hn, if_neg hn]

/-- What they are written as is not empty. -/
theorem VarSpec.ne_nil_of_marked? {n : Text} {o : Operator} {v : VarSpec} {t : Text}
    (h : v.marked? n o = some t) : t ≠ [] := by
  unfold marked? at h
  split at h
  · cases h
    exact o.withName_ne_nil _
  · cases h

namespace Expression

variable {e : Expression}

/-- Where nothing is bound, an expression leaves nothing behind. -/
theorem expand_empty (h : e.check = .ok ()) : e.expand Context.empty.look = .ok [] := by
  have htexts : e.specs.mapM (VarSpec.expand? Context.empty.look e.effectiveOperator) =
      .ok (e.specs.map fun _ => none) :=
    mapM_eq_ok_map fun v _ => VarSpec.expand?_of_isUndefined trivial
  refine expand_eq_ok.mpr ⟨h, _, htexts, ?_⟩
  simp [Operator.join]

/-- Where a name of the expression is bound, the expression leaves some text behind. -/
theorem expand_marking (h : e.check = .ok ()) (n : Text) :
    ∃ s, e.expand (Context.marking n).look = .ok s ∧
      ((∃ v ∈ e.specs, v.name.text = n) → s ≠ []) := by
  have htexts : e.specs.mapM (VarSpec.expand? (Context.marking n).look e.effectiveOperator) =
      .ok (e.specs.map (VarSpec.marked? n e.effectiveOperator)) :=
    mapM_eq_ok_map fun v _ => VarSpec.expand?_marking n _ v
  refine ⟨_, expand_eq_ok.mpr ⟨h, _, htexts, rfl⟩, fun ⟨v, hv, hn⟩ => ?_⟩
  rw [List.filterMap_map, Function.id_comp]
  apply Operator.join_ne_nil
  · have hsome : v.marked? n e.effectiveOperator = some _ := if_pos hn
    exact List.ne_nil_of_mem (List.mem_filterMap.mpr ⟨v, hv, hsome⟩)
  · intro t ht
    obtain ⟨u, -, hu⟩ := List.mem_filterMap.mp ht
    exact VarSpec.ne_nil_of_marked? hu

end Expression

/-- Binding a name of the template makes the text longer, and binding another one does not make
it shorter. -/
theorem Template.expand_marking (n : Text) (ps : List Part)
    (hcheck : ∀ e ∈ Template.expressions ⟨ps⟩, e.check = .ok ()) :
    ∃ s s', Template.expand Context.empty.look ⟨ps⟩ = .ok s ∧
      Template.expand (Context.marking n).look ⟨ps⟩ = .ok s' ∧ s.length ≤ s'.length ∧
      ((∃ e ∈ Template.expressions ⟨ps⟩, ∃ v ∈ e.specs, v.name.text = n) →
        s.length < s'.length) := by
  induction ps with
  | nil => exact ⟨[], [], expand_nil _, expand_nil _, Nat.le_refl _, fun ⟨_, he, _⟩ => nomatch he⟩
  | cons p ps ih =>
    -- a literal adds the same to both texts, and an expression more to the second one if it has
    -- the name
    cases p with
    | literal l =>
      obtain ⟨s, s', hs, hs', hle, hlt⟩ := ih hcheck
      refine ⟨l.text ++ s, l.text ++ s', ?_, ?_, ?_, fun hn => ?_⟩
      · rw [expand_cons, hs]
        rfl
      · rw [expand_cons, hs']
        rfl
      · simp only [List.length_append]
        omega
      · have := hlt hn
        simp only [List.length_append]
        omega
    | expression e =>
      rw [expressions_expression, List.forall_mem_cons] at hcheck
      obtain ⟨s, s', hs, hs', hle, hlt⟩ := ih hcheck.2
      obtain ⟨t, ht, hne⟩ := Expression.expand_marking hcheck.1 n
      refine ⟨s, t ++ s', ?_, ?_, ?_, fun ⟨e', he', v, hv, hn⟩ => ?_⟩
      · rw [expand_cons, Part.expand, Expression.expand_empty hcheck.1, hs]
        rfl
      · rw [expand_cons, Part.expand, ht, hs']
        rfl
      · rw [List.length_append]
        omega
      · rw [List.length_append]
        rw [expressions_expression] at he'
        rcases List.mem_cons.mp he' with rfl | he'
        · -- the name stands in this expression
          have := List.length_pos_of_ne_nil (hne ⟨v, hv, hn⟩)
          omega
        · have := hlt ⟨e', he', v, hv, hn⟩
          omega

/-- The variables that a template lists are what its expansion reads.  Contexts that bind them
alike give the same text or the same error, and where the prefix lengths can be written, the
error is one of expansion.  If no operator is set aside and no prefix length is beyond the limit,
each of the names matters: two contexts that differ in it alone give different texts.  Each name
is listed once, in the order of first appearance. -/
theorem Value.expandTemplate_variableNames (t : Template) :
    (∀ c c' : Context, (∀ n ∈ t.variableNames, (c.look n).Alike (c'.look n)) →
        Value.expandTemplate t c.toValue = Value.expandTemplate t c'.toValue) ∧
      (t.IsReadable → ∀ c : Context, c.IsShaped → ∀ f,
        Value.expandTemplate t c.toValue = .error f → f.kind = .expansion) ∧
      ((∀ e ∈ t.expressions, e.effectiveOperator.isReserved = false) →
        (∀ e ∈ t.expressions, ∀ v ∈ e.specs, ∀ m, v.limit? = some m → m ≤ 9999) →
        ∀ n ∈ t.variableNames, ∃ c c' : Context, c.IsShaped ∧ c'.IsShaped ∧
          (∀ k, (Value.text n == k) = false → c.entries.get? k = c'.entries.get? k) ∧
          ∃ s s', Value.expandTemplate t c.toValue = .ok s ∧
            Value.expandTemplate t c'.toValue = .ok s' ∧ s ≠ s') ∧
      t.variableNames.Nodup ∧
      (∀ n, n ∈ t.variableNames ↔ ∃ e ∈ t.expressions, ∃ v ∈ e.specs, v.name.text = n) ∧
      t.variableNames.Pairwise fun m n => t.occurrences.idxOf m < t.occurrences.idxOf n := by
  have hexpand : ∀ c : Context,
      Value.expandTemplate t c.toValue = (t.expand c.look).mapError .expansion := fun c => rfl
  refine ⟨fun c c' halike => ?_, fun hread c hshape f hf => ?_, fun hops hlimits n hn => ?_,
    t.nodup_variableNames, fun n => Template.mem_variableNames_iff, t.pairwise_variableNames⟩
  · rw [hexpand, hexpand, Template.expand_congr halike]
  · obtain ⟨err, herr, rfl⟩ := mapError_eq_error.mp hf
    exact Template.kind_of_expand_eq_error (Context.isShaped_look hshape) hread herr
  · -- under these conditions nothing in the template itself is refused
    have hcheck : ∀ e ∈ t.expressions, e.check = .ok () := fun e he =>
      Expression.check_eq_ok_iff.mpr ⟨hops e he, hlimits e he⟩
    obtain ⟨s, s', hs, hs', -, hlt⟩ := Template.expand_marking n t.parts hcheck
    refine ⟨.empty, .marking n, List.forall_mem_nil _, ?_, fun k hk => Context.get?_marking hk,
      s, s', mapError_eq_ok.mpr hs, mapError_eq_ok.mpr hs', fun heq => ?_⟩
    · exact List.forall_mem_singleton.mpr rfl
    · have := hlt (Template.mem_variableNames_iff.mp hn)
      rw [heq] at this
      omega

/-- A name that appears twice, a list without members, and contexts in different orders. -/
theorem Value.expandTemplate_variableNames_repeated :
    ∃ (t : Template) (c c' : Context),
      t.format = "{x:3}/{?y,x*}".toText ∧ t.variableNames = ["x".toText, "y".toText] ∧
        c.look "y".toText = .item (.list []) ∧ c'.look "y".toText = .unbound ∧
        Value.expandTemplate t c.toValue = .ok "a%20b/?x=a%20bc".toText ∧
        Value.expandTemplate t c'.toValue = .ok "a%20b/?x=a%20bc".toText ∧
        ∃ c₁ c₂ : Context,
          (∀ k, (Value.text "y".toText == k) = false → c₁.entries.get? k = c₂.entries.get? k) ∧
          ∃ s s', Value.expandTemplate t c₁.toValue = .ok s ∧
            Value.expandTemplate t c₂.toValue = .ok s' ∧ s ≠ s' := by
  let x : VarName := ⟨"x".toText, by decide⟩
  let t : Template :=
    ⟨[.expression ⟨[⟨x, some (.limit ⟨3, by decide⟩)⟩], none, by decide⟩,
      .literal ⟨"/".toText, by decide, by decide⟩,
      .expression ⟨[⟨⟨"y".toText, by decide⟩, none⟩, ⟨x, some .explode⟩],
        some (.prefixing '?' '&' true "=".toText), by decide⟩]⟩
  let c : Context :=
    ⟨[(.text "y".toText, .list []), (.text "x".toText, .atom "a bc".toText)]⟩
  let c' : Context :=
    ⟨[(.text "x".toText, .atom "a bc".toText), (.text "z".toText, .atom "other".toText)]⟩
  obtain ⟨hreads, -, hmatters, -⟩ := Value.expandTemplate_variableNames t
  have hnames : t.variableNames = ["x".toText, "y".toText] := by decide
  have hy : c.look "y".toText = .item (.list []) := rfl
  have hy' : c'.look "y".toText = .unbound := rfl
  -- an empty list counts as not bound
  have halike : ∀ n ∈ t.variableNames, (c.look n).Alike (c'.look n) := by
    rw [hnames]
    refine List.forall_mem_cons.mpr ⟨.inl rfl, List.forall_mem_singleton.mpr (.inr ?_)⟩
    rw [hy, hy']
    exact ⟨rfl, trivial⟩
  have hexpand : Value.expandTemplate t c.toValue = .ok "a%20b/?x=a%20bc".toText := by
    decide +kernel
  have hlimits : ∀ e ∈ t.expressions, ∀ v ∈ e.specs, ∀ m ∈ v.limit?, m ≤ 9999 := by decide
  obtain ⟨c₁, c₂, -, -, hsame, hdifferent⟩ := hmatters (by decide) hlimits "y".toText
    (by rw [hnames]; decide)
  exact ⟨t, c, c', by decide, hnames, hy, hy', hexpand, (hreads c c' halike).symm.trans hexpand,
    c₁, c₂, hsame, hdifferent⟩

/-- A prefix length that cannot be written: contexts that bind the names alike have the same
error, but it is not one of expansion. -/
theorem Value.expandTemplate_variableNames_oversized :
    ∃ (t : Template) (e : Expression) (c c' : Context),
      t.parts = [.expression e] ∧ e.operator = none ∧ c.IsShaped ∧ c'.IsShaped ∧
        (∀ n ∈ t.variableNames, (c.look n).Alike (c'.look n)) ∧
        ∃ f, Value.expandTemplate t c.toValue = .error f ∧
          Value.expandTemplate t c'.toValue = .error f ∧ f.kind = .value := by
  -- only that the length is large matters, and not its digits
  obtain ⟨n, hpow⟩ : ∃ n, n = Nat.pow 10 Text.digitLimit := ⟨_, rfl⟩
  have hlong : Nat.pow 10 Text.digitLimit ≤ n := Nat.le_of_eq hpow.symm
  have hlarge : 9999 < n := lt_of_oversized hlong
  let v : VarSpec := ⟨⟨"x".toText, by decide⟩, some (.limit ⟨n, by omega⟩)⟩
  let e : Expression := ⟨[v], none, List.cons_ne_nil _ _⟩
  have hwhole : ∀ c : Context, Value.expandTemplate ⟨[.expression e]⟩ c.toValue =
      .error (.expansion .oversizedLength) := by
    intro c
    have hexpand : e.expand c.look = .error .oversizedLength :=
      Expression.expand_of_oversized rfl rfl rfl hlong
    refine mapError_eq_error.mpr ⟨_, ?_, rfl⟩
    rw [Template.expand_cons]
    exact bind_eq_error.mpr (.inl hexpand)
  exact ⟨⟨[.expression e]⟩, e, .empty, .empty, rfl, rfl, List.forall_mem_nil _,
    List.forall_mem_nil _, fun _ _ => .inl rfl, _, hwhole _, hwhole _, rfl⟩

end UriTemplate
