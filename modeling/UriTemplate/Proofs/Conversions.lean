import UriTemplate.Context
import UriTemplate.Proofs.ValueTexts

/-!
# Conversions of values to items

A value is converted to an item by writing the texts, truth values and numbers in it
(`Value.IsScalar`).  The values that have an item are given here by their forms alone
(`Value.exists_toItem?_eq_ok_iff`).  What else stands where a scalar is needed is refused as a value
of a type that does not serve, and the refusal shows it.  This goes wrong in one way: what cannot be
shown fails with the fault of showing it (`Value.failsByTypeIf_toItem?`).  The names of a mapping
are written too, and of these it is known that they have keys (`Value.NamesHaveKeys`), since a
mapping is made by looking them up.
-/

namespace UriTemplate

namespace Value

/-! ## Values that can be shown -/

/-- A value has an inspection form: no integer and no prefix length in it has too many digits, and
no item in it leaves open how it looks. -/
def CanBeShown (v : Value) : Prop := ∃ t, v.inspect = .ok t

/-- Members are shown one by one. -/
theorem inspectAll_eq_mapM (vs : List Value) : inspectAll vs = vs.mapM inspect := by
  induction vs with
  | nil => rfl
  | cons v vs ih => rw [inspectAll, ih, List.mapM_cons]

/-- Members are shown just if each of them is. -/
theorem exists_inspectAll_eq_ok_iff {vs : List Value} :
    (∃ ts, inspectAll vs = .ok ts) ↔ ∀ v ∈ vs, v.CanBeShown := by
  rw [inspectAll_eq_mapM]
  exact exists_mapM_eq_ok_iff

/-- A list can be shown just if its members can. -/
theorem canBeShown_list_iff {vs : List Value} :
    (list vs).CanBeShown ↔ ∀ v ∈ vs, v.CanBeShown := by
  rw [← exists_inspectAll_eq_ok_iff, CanBeShown, inspect]
  exact exists_map_eq_ok_iff

/-- So can a tuple. -/
theorem canBeShown_tuple_iff {vs : List Value} :
    (tuple vs).CanBeShown ↔ ∀ v ∈ vs, v.CanBeShown := by
  rw [← exists_inspectAll_eq_ok_iff, CanBeShown, inspect]
  exact exists_map_eq_ok_iff

/-- Entries are shown only if their names and their values can be shown. -/
theorem canBeShown_of_inspectEntries {entries : List (Value × Value)} {ts : List Text}
    (h : inspectEntries entries = .ok ts) : ∀ e ∈ entries, e.1.CanBeShown ∧ e.2.CanBeShown := by
  induction entries generalizing ts with
  | nil => exact List.forall_mem_nil _
  | cons e rest ih =>
    obtain ⟨k, v⟩ := e
    simp only [inspectEntries, bind_eq_ok] at h
    obtain ⟨key, hkey, value, hvalue, ts, hts, -⟩ := h
    exact List.forall_mem_cons.mpr ⟨⟨⟨key, hkey⟩, value, hvalue⟩, ih hts⟩

/-- So are the bindings of a context. -/
theorem canBeShown_of_inspectBindings {entries : List (Value × Item Value)} {ts : List Text}
    (h : inspectBindings entries = .ok ts) :
    ∀ e ∈ entries, e.1.CanBeShown ∧ (item e.2).CanBeShown := by
  induction entries generalizing ts with
  | nil => exact List.forall_mem_nil _
  | cons e rest ih =>
    obtain ⟨k, i⟩ := e
    simp only [inspectBindings, bind_eq_ok] at h
    obtain ⟨key, hkey, value, hvalue, ts, hts, -⟩ := h
    have hitem : (item i).CanBeShown := ⟨value, by rw [inspect, hvalue]⟩
    exact List.forall_mem_cons.mpr ⟨⟨⟨key, hkey⟩, hitem⟩, ih hts⟩

/-- The entries of a mapping that can be shown have names and values that can be shown. -/
theorem CanBeShown.entries {v : Value} (h : v.CanBeShown) {entries : List (Value × Value)}
    (hentries : v.entries? = some entries) :
    ∀ e ∈ entries, e.1.CanBeShown ∧ e.2.CanBeShown := by
  obtain ⟨t, ht⟩ := h
  -- only mappings and contexts have entries
  cases v with
  | map es =>
    cases hentries
    rw [inspect] at ht
    obtain ⟨ts, hts, -⟩ := map_eq_ok.mp ht
    exact canBeShown_of_inspectEntries hts
  | context es =>
    cases hentries
    rw [inspect] at ht
    obtain ⟨ts, hts, -⟩ := map_eq_ok.mp ht
    exact List.forall_mem_map.mpr (canBeShown_of_inspectBindings hts)
  | _ => cases hentries

/-! ## Type errors -/

/-- A run fails with type errors; or with the fault of showing something, and only unless what it
is about can be shown. -/
def FailsByTypeIf (shown : Prop) {α : Type} (x : Except Fault α) : Prop :=
  ∀ f, x = .error f → f.kind = .type ∨ IsUnshown f ∧ ¬ shown

namespace FailsByTypeIf

variable {α γ : Type} {x : Except Fault α} {shown shown' : Prop}

/-- A run that succeeds does not fail. -/
theorem ok (a : α) : FailsByTypeIf shown (.ok a) := nofun

/-- What is about a part is about the whole. -/
theorem mono (h : FailsByTypeIf shown x) (hpart : shown' → shown) : FailsByTypeIf shown' x :=
  fun f hf => (h f hf).imp_right fun ⟨hunshown, hnot⟩ => ⟨hunshown, mt hpart hnot⟩

/-- What is made of a result does not matter. -/
theorem map (h : FailsByTypeIf shown x) (f : α → γ) : FailsByTypeIf shown (x.map f) :=
  fun e he => h e (map_eq_error.mp he)

/-- Two steps fail as one of them does. -/
theorem bind {f : α → Except Fault γ} (h : FailsByTypeIf shown x)
    (hf : ∀ a, FailsByTypeIf shown (f a)) : FailsByTypeIf shown (x >>= f) := by
  intro e he
  obtain hx | ⟨a, -, ha⟩ := bind_eq_error.mp he
  · exact h e hx
  · exact hf a e ha

/-- A pass fails as its steps do. -/
theorem mapM {f : γ → Except Fault α} {xs : List γ} (h : ∀ x ∈ xs, FailsByTypeIf shown (f x)) :
    FailsByTypeIf shown (xs.mapM f) := by
  intro e he
  obtain ⟨pre, x, post, hfirst⟩ := firstFails_of_mapM_eq_error he
  exact h x (by simp [hfirst.split]) e hfirst.fails

end FailsByTypeIf

/-- Showing a value fails only if it cannot be shown. -/
theorem failsByTypeIf_inspect (v : Value) : FailsByTypeIf v.CanBeShown v.inspect :=
  fun f hf => .inr ⟨inspect_shows v f hf, fun ⟨_, ht⟩ => ne_ok_of_eq_error hf ht⟩

/-! ## Plain texts of names -/

/-- A value has a key.  Every name of a mapping that was made has one. -/
def HasKey (v : Value) : Prop := ∃ k, v.key = .ok k

/-- The names in a mapping have keys. -/
def NamesHaveKeys (v : Value) : Prop :=
  ∀ entries, v.entries? = some entries → ∀ e ∈ entries, e.1.HasKey

/-- The keys of members are those of each of them. -/
theorem hasKey_of_keys_eq_ok {vs : List Value} {k : Key} (h : keys vs = .ok k) :
    ∀ v ∈ vs, v.HasKey := by
  -- the keys are computed from the front
  induction vs generalizing k with
  | nil => exact List.forall_mem_nil _
  | cons v vs ih =>
    obtain ⟨x, hx, hrest⟩ := bind_eq_ok.mp h
    obtain ⟨y, hy, -⟩ := bind_eq_ok.mp hrest
    exact List.forall_mem_cons.mpr ⟨⟨x, hx⟩, ih hy⟩

/-- A template has a key only if its parts have keys. -/
theorem HasKey.parts {parts : List Value} (h : (looseTemplate parts).HasKey) :
    ∀ v ∈ parts, v.HasKey := by
  obtain ⟨k, hk⟩ := h
  rw [key] at hk
  obtain ⟨ks, hks, -⟩ := map_eq_ok.mp hk
  exact hasKey_of_keys_eq_ok hks

/-- An expression has a key only if the symbol of its operator has one. -/
theorem HasKey.symbol {specs : List VarSpec} {o : LooseOperator Value}
    (h : (looseExpression specs o).HasKey) : o.symbol.HasKey := by
  -- a text is a key itself, and the key of another symbol goes into that of the expression
  by_cases htext : ∃ t, o.symbol = text t
  · obtain ⟨t, ht⟩ := htext
    rw [ht]
    exact ⟨_, rfl⟩
  · obtain ⟨k, hk⟩ := h
    rw [key, operatorKey_eq_map (not_exists.mp htext)] at hk
    obtain ⟨ks, hks, -⟩ := map_eq_ok.mp hk
    exact ⟨ks, hks⟩

/-- Prefix lengths are refused only if one of them cannot be written. -/
theorem failsByTypeIf_checkLengths (areWritable : Bool) :
    FailsByTypeIf (areWritable = true) (checkLengths areWritable) := by
  intro f hf
  refine .inr ⟨checkLengths_shows _ f hf, fun hwritable => ?_⟩
  exact ne_ok_of_eq_error hf (checkLengths_eq_ok_iff.mpr hwritable)

/-- A piece of a template can be shown just if its prefix lengths can be written. -/
theorem canBeShown_node_iff {n : Node} : (node n).CanBeShown ↔ n.isWritable = true := by
  refine ⟨fun ⟨t, ht⟩ => ?_, fun h => ⟨_, inspect_node h⟩⟩
  rw [inspect] at ht
  obtain ⟨_, hcheck, -⟩ := bind_eq_ok.mp ht
  exact checkLengths_eq_ok_iff.mp hcheck

/-- So can an expression, if the symbol of its operator can be shown as well. -/
theorem CanBeShown.expression {specs : List VarSpec} {o : LooseOperator Value}
    (h : (looseExpression specs o).CanBeShown) :
    specs.all VarSpec.isWritable = true ∧ ∃ t, inspectOperator o = .ok t := by
  obtain ⟨t, ht⟩ := h
  rw [inspect] at ht
  obtain ⟨_, hcheck, hrest⟩ := bind_eq_ok.mp ht
  obtain ⟨symbol, hsymbol, -⟩ := bind_eq_ok.mp hrest
  exact ⟨checkLengths_eq_ok_iff.mp hcheck, symbol, hsymbol⟩

/-- The plain text of a value with a key is its inspection form or is put together from the texts
of its parts, and the symbol of an operator may be no text.  An abstract node, which can be shown
but has no plain text, has no key, and neither has a value that shows one in its plain text. -/
theorem plainTexts_failByType :
    (∀ v : Value, v.HasKey → FailsByTypeIf v.CanBeShown v.toText) ∧
      (∀ vs : List Value, (∀ v ∈ vs, v.HasKey) →
        FailsByTypeIf (∀ v ∈ vs, v.CanBeShown) (toTexts vs)) ∧
      ∀ o, o.symbol.HasKey → FailsByTypeIf (∃ t, inspectOperator o = .ok t) (symbolText o) := by
  refine toText.mutual_induct (fun v => v.HasKey → FailsByTypeIf v.CanBeShown v.toText)
    (fun vs => (∀ v ∈ vs, v.HasKey) → FailsByTypeIf (∀ v ∈ vs, v.CanBeShown) (toTexts vs))
    (fun o => o.symbol.HasKey → FailsByTypeIf (∃ t, inspectOperator o = .ok t) (symbolText o))
    -- texts, pieces and operators
    (fun _ _ => .ok _) ?_ ?_ (fun _ _ => .ok _) ?_ ?_ ?_ ?_ ?_
    -- members and symbols
    (fun _ => .ok _) ?_ ?_
  · -- a piece of a template is refused with its lengths
    intro n _
    rw [toText, canBeShown_node_iff]
    exact (failsByTypeIf_checkLengths _).bind fun _ => .ok _
  · -- an abstract node has no key
    rintro ⟨k, hk⟩
    rw [key] at hk
    cases hk
  · -- a made operator has a text for its symbol, or none
    intro o t ht _
    rw [toText, ht]
    exact .ok t
  · intro o hno _ f hf
    rw [toText] at hf
    split at hf
    · next t ht => exact absurd ht (hno t)
    · cases hf
      exact .inl rfl
  · -- the lengths come first, and then the symbol
    intro specs o ho hkey
    rw [toText]
    refine ((failsByTypeIf_checkLengths _).mono fun h => h.expression.1).bind fun _ => ?_
    exact ((ho hkey.symbol).mono fun h => h.expression.2).bind fun _ => .ok _
  · -- a template is the text of its parts
    intro parts hparts hkey
    rw [toText]
    refine ((hparts hkey.parts).mono fun hshown => ?_).map _
    rw [CanBeShown, inspect, exists_map_eq_ok_iff] at hshown
    exact exists_inspectAll_eq_ok_iff.mp hshown
  · -- all other values are shown
    intro v h₁ h₂ h₃ h₄ h₅ h₆ h₇ _
    rw [toText.eq_8 v h₁ h₂ h₃ h₄ h₅ h₆ h₇]
    exact failsByTypeIf_inspect v
  · -- members fail one by one
    intro v vs hv hvs hkeys
    rw [List.forall_mem_cons] at hkeys
    rw [toTexts]
    simp only [List.forall_mem_cons]
    exact ((hv hkeys.1).mono And.left).bind fun _ =>
      ((hvs hkeys.2).mono And.right).bind fun _ => .ok _
  · -- a symbol that is no text is written as what it is
    intro symbol _ _ _ _ _ _ hsymbol hkey
    refine (hsymbol hkey).mono fun hshown => ?_
    rw [inspectOperator, exists_map_eq_ok_iff] at hshown
    exact hshown

/-- So the plain text of a name fails with a type error, or because the name cannot be shown. -/
theorem failsByTypeIf_toText {v : Value} (h : v.HasKey) : FailsByTypeIf v.CanBeShown v.toText :=
  plainTexts_failByType.1 v h

/-! ## Scalars -/

/-- A value that is written as a text: a text, a truth value or a number.  An integer must not have
too many digits. -/
def IsScalar : Value → Prop
  | text _ => True
  | bool _ => True
  | int n => n.natAbs < Nat.pow 10 Text.digitLimit
  | float _ => True
  | _ => False

/-- An integer is written just if it does not have too many digits. -/
theorem exists_intText_eq_ok_iff {n : Int} :
    (∃ t, intText n = .ok t) ↔ n.natAbs < Nat.pow 10 Text.digitLimit := by
  unfold intText Text.ofInt?
  by_cases hn : n.natAbs < Nat.pow 10 Text.digitLimit
  · rw [if_pos hn]
    exact iff_of_true ⟨_, rfl⟩ hn
  · rw [if_neg hn]
    exact iff_of_false nofun hn

/-- A value is written just if it is a scalar. -/
theorem exists_scalarText_eq_ok_iff {v : Value} : (∃ t, v.scalarText = .ok t) ↔ v.IsScalar := by
  cases v with
  | text t => exact iff_of_true ⟨t, rfl⟩ trivial
  | bool b => exact iff_of_true ⟨_, rfl⟩ trivial
  | float x => exact iff_of_true ⟨_, rfl⟩ trivial
  | int n =>
    rw [scalarText, IsScalar]
    exact exists_intText_eq_ok_iff
  | _ =>
    -- the other kinds are refused, however showing them ends
    refine iff_of_false ?_ id
    rintro ⟨t, ht⟩
    obtain ⟨_, -, hthrow⟩ := bind_eq_ok.mp ht
    cases hthrow

/-- A value that is not written is refused with a type error if it can be shown, and else with the
fault of showing it. -/
theorem scalarText_eq_error {v : Value} {f : Fault} (h : v.scalarText = .error f) :
    v.CanBeShown ∧ f.kind = .type ∨ v.inspect = .error f ∧ IsUnshown f := by
  have hunshown (hf : v.inspect = .error f) : v.inspect = .error f ∧ IsUnshown f :=
    ⟨hf, inspect_shows v f hf⟩
  cases v with
  | text t => cases h
  | bool b => cases h
  | float x => cases h
  -- an integer is shown as it is written
  | int n => exact .inr (hunshown h)
  | _ =>
    -- all others are shown in the refusal
    obtain hf | ⟨t, ht, hthrow⟩ := bind_eq_error.mp h
    · exact .inr (hunshown hf)
    · cases hthrow
      exact .inl ⟨⟨t, ht⟩, rfl⟩

/-- So writing a value fails with a type error unless it cannot be shown. -/
theorem failsByTypeIf_scalarText (v : Value) : FailsByTypeIf v.CanBeShown v.scalarText := by
  intro f hf
  refine (scalarText_eq_error hf).imp And.right fun ⟨hinspect, hunshown⟩ => ⟨hunshown, ?_⟩
  exact fun ⟨_, ht⟩ => ne_ok_of_eq_error hinspect ht

/-! ## Items -/

/-- A value has an item, or is the null value, which stands for none. -/
inductive HasItem : Value → Prop
  | null : HasItem null
  | item (i : Item Value) : HasItem (item i)
  | scalar {v : Value} (h : v.IsScalar) : HasItem v
  | list {vs : List Value} (h : ∀ v ∈ vs, v.IsScalar) : HasItem (list vs)
  | tuple {vs : List Value} (h : ∀ v ∈ vs, v.IsScalar) : HasItem (tuple vs)
  | mapping {v : Value} {entries : List (Value × Value)} (hentries : v.entries? = some entries)
      (h : ∀ e ∈ entries, (∃ t, e.1.toText = .ok t) ∧ e.2.IsScalar) : HasItem v

/-- The members of a list and a tuple are written one by one. -/
theorem toItem?_list (vs : List Value) :
    (list vs).toItem? = (vs.mapM scalarText).map fun ts => some (.list ts) :=
  bind_pure_eq_map

/-- The same for a tuple. -/
theorem toItem?_tuple (vs : List Value) :
    (tuple vs).toItem? = (vs.mapM scalarText).map fun ts => some (.list ts) :=
  bind_pure_eq_map

/-- So are the entries of a mapping. -/
theorem toItem?_of_entries {v : Value} {entries : List (Value × Value)}
    (hentries : v.entries? = some entries) :
    v.toItem? = (entries.mapM scalarPair).map fun ps => some (.assoc (.ofPairs ps)) := by
  cases v with
  | map es =>
    cases hentries
    exact bind_pure_eq_map
  | context es =>
    cases hentries
    exact bind_pure_eq_map
  | _ => cases hentries

/-- A scalar is bound as its text. -/
theorem toItem?_of_isScalar {v : Value} (h : v.IsScalar) :
    v.toItem? = v.scalarText.map fun t => some (.atom t) := by
  cases v with
  | text t => rfl
  | bool b => rfl
  | float x => rfl
  | int n => exact bind_pure_eq_map
  | _ => exact h.elim

/-- An entry is written just if its name has a plain text and its value is a scalar. -/
theorem exists_scalarPair_eq_ok_iff {e : Value × Value} :
    (∃ p, scalarPair e = .ok p) ↔ (∃ t, e.1.toText = .ok t) ∧ e.2.IsScalar := by
  rw [← exists_scalarText_eq_ok_iff]
  constructor
  · intro ⟨p, hp⟩
    obtain ⟨key, hkey, hrest⟩ := bind_eq_ok.mp hp
    obtain ⟨value, hvalue, -⟩ := bind_eq_ok.mp hrest
    exact ⟨⟨key, hkey⟩, value, hvalue⟩
  · intro ⟨⟨key, hkey⟩, value, hvalue⟩
    exact ⟨(key, value), bind_eq_ok.mpr ⟨key, hkey, bind_eq_ok.mpr ⟨value, hvalue, rfl⟩⟩⟩

/-- Converting a value gives an item just if it has one. -/
theorem exists_toItem?_eq_ok_iff {v : Value} : (∃ i?, v.toItem? = .ok i?) ↔ v.HasItem := by
  constructor
  · intro h
    cases v with
    | null => exact .null
    | item i => exact .item i
    | list vs =>
      rw [toItem?_list, exists_map_eq_ok_iff, exists_mapM_eq_ok_iff] at h
      exact .list fun v hv => exists_scalarText_eq_ok_iff.mp (h v hv)
    | tuple vs =>
      rw [toItem?_tuple, exists_map_eq_ok_iff, exists_mapM_eq_ok_iff] at h
      exact .tuple fun v hv => exists_scalarText_eq_ok_iff.mp (h v hv)
    | map es =>
      rw [toItem?_of_entries rfl, exists_map_eq_ok_iff, exists_mapM_eq_ok_iff] at h
      exact .mapping rfl fun e he => exists_scalarPair_eq_ok_iff.mp (h e he)
    | context es =>
      rw [toItem?_of_entries rfl, exists_map_eq_ok_iff, exists_mapM_eq_ok_iff] at h
      exact .mapping rfl fun e he => exists_scalarPair_eq_ok_iff.mp (h e he)
    -- what is no collection and no item stands for its text
    | _ => exact .scalar (exists_scalarText_eq_ok_iff.mp (exists_bind_pure_eq_ok_iff.mp h))
  · intro h
    -- every form is written by its own passes
    cases h with
    | null => exact ⟨_, rfl⟩
    | item i => exact ⟨_, rfl⟩
    | scalar h =>
      rw [toItem?_of_isScalar h, exists_map_eq_ok_iff]
      exact exists_scalarText_eq_ok_iff.mpr h
    | list h =>
      rw [toItem?_list, exists_map_eq_ok_iff, exists_mapM_eq_ok_iff]
      exact fun v hv => exists_scalarText_eq_ok_iff.mpr (h v hv)
    | tuple h =>
      rw [toItem?_tuple, exists_map_eq_ok_iff, exists_mapM_eq_ok_iff]
      exact fun v hv => exists_scalarText_eq_ok_iff.mpr (h v hv)
    | mapping hentries h =>
      rw [toItem?_of_entries hentries, exists_map_eq_ok_iff, exists_mapM_eq_ok_iff]
      exact fun e he => exists_scalarPair_eq_ok_iff.mpr (h e he)

/-- Converting a value fails with a type error, unless the value cannot be shown. -/
theorem failsByTypeIf_toItem? {v : Value} (hnames : v.NamesHaveKeys) :
    FailsByTypeIf v.CanBeShown v.toItem? := by
  have hpairs : ∀ {entries : List (Value × Value)}, v.entries? = some entries →
      FailsByTypeIf v.CanBeShown (entries.mapM scalarPair) := by
    intro entries hentries
    -- the name of an entry is written before its value
    refine .mapM fun e he => ?_
    have hname := failsByTypeIf_toText (hnames entries hentries e he)
    refine (hname.mono fun h => (h.entries hentries e he).1).bind fun _ => ?_
    refine ((failsByTypeIf_scalarText e.2).mono fun h => (h.entries hentries e he).2).bind ?_
    exact fun _ => .ok _
  cases v with
  | null => exact .ok _
  | item i => exact .ok _
  | list vs =>
    -- a collection is refused with its first bad member, which is shown with it
    rw [toItem?_list]
    refine FailsByTypeIf.map (.mapM fun v hv => ?_) _
    exact (failsByTypeIf_scalarText v).mono fun h => canBeShown_list_iff.mp h v hv
  | tuple vs =>
    rw [toItem?_tuple]
    refine FailsByTypeIf.map (.mapM fun v hv => ?_) _
    exact (failsByTypeIf_scalarText v).mono fun h => canBeShown_tuple_iff.mp h v hv
  | map es =>
    rw [toItem?_of_entries rfl]
    exact (hpairs rfl).map _
  | context es =>
    rw [toItem?_of_entries rfl]
    exact (hpairs rfl).map _
  | _ => exact (failsByTypeIf_scalarText _).bind fun _ => .ok _

/-- A list in a list is refused, and what cannot be shown in it makes the refusal fail itself. -/
theorem toItem?_nested {v : Value} {f : Fault} (h : v.inspect = .error f) :
    (list [list [v]]).toItem? = .error f := by
  have hshown : (list [v]).inspect = .error f := map_eq_error.mpr (bind_eq_error.mpr (.inl h))
  have hmember : (list [v]).scalarText = .error f := bind_eq_error.mpr (.inl hshown)
  rw [toItem?_list]
  exact map_eq_error.mpr (FirstFails.head hmember).mapM_eq

/-- Nothing but the null value stands for no item. -/
theorem eq_null_of_toItem?_eq_none {v : Value} (h : v.toItem? = .ok none) : v = null := by
  cases v with
  | null => rfl
  | item i => cases h
  | _ =>
    obtain ⟨_, -, hnone⟩ := bind_eq_ok.mp h
    cases hnone

/-- The null value stands for no item. -/
theorem ne_null_of_toItem?_eq_some {v : Value} {i : Item Value} (h : v.toItem? = .ok (some i)) :
    v ≠ null := by
  rintro rfl
  cases h

end Value

end UriTemplate
