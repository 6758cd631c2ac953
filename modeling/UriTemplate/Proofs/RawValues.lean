import UriTemplate.Proofs.ContextWrites
import UriTemplate.Proofs.Refusals

/-!
# Raw values and items

An item can be given back as the plain value that it was made from: a text, a list of texts, or a
mapping of texts to texts (`Item.raw`).  A context is the same whether it is made from items or from
their raw values, names and order included (`Context.ofValue_rawValues`).

Scalars in a list, a tuple or a mapping are written as they are on their own: the members of a list
item are the texts of the atoms that the members stand for, in the same order
(`Value.toItem?_of_scalars`), and so are the values of an association
(`Value.toItem?_of_scalar_values`).  The first member that is no scalar is refused.
-/

namespace UriTemplate

/-! ## Raw values -/

/-- The raw value of an item.  A bare item leaves it open. -/
def Item.raw : Item Value → Except Fault Value
  | .atom t => .ok (.text t)
  | .list ts => .ok (.list (ts.map .text))
  | .assoc pairs => .ok (.map (pairs.entries.map fun p => (.text p.1, .text p.2)))
  | .bare _ => .error (.misuse .abstract)

/-- The names of a context with the raw values of their items, as a mapping. -/
def Context.rawValues (c : Context) : Except Fault Value := do
  return .map (← c.entries.mapM fun e => do return (e.1, ← e.2.raw))

/-- Pairs with pairwise different keys are the entries of their association. -/
theorem Assoc.entries_ofPairs {pairs : List (Text × Text)} (h : (pairs.map (·.1)).Nodup) :
    (Assoc.ofPairs pairs).entries = pairs := by
  refine Entries.ofPairs_eq_self ((List.pairwise_map.mp h).imp fun hne => ?_)
  exact beq_eq_false_iff_ne.mpr hne

/-- Making an association again from its entries changes nothing. -/
theorem Assoc.ofPairs_entries (pairs : Assoc) : Assoc.ofPairs pairs.entries = pairs := by
  obtain ⟨entries, distinct⟩ := pairs
  have hentries : (Assoc.ofPairs entries).entries = entries := Assoc.entries_ofPairs distinct
  rw [← Assoc.mk.injEq] at hentries
  exact hentries

namespace Item

/-- The raw value of an item is converted to the item. -/
theorem toItem?_of_raw_eq_ok {i : Item Value} {v : Value} (h : i.raw = .ok v) :
    v.toItem? = .ok (some i) := by
  cases i with
  | bare v => cases h
  | atom t =>
    cases h
    rfl
  | list ts =>
    -- the members are texts, and texts are written as they are
    cases h
    have htexts : (ts.map Value.text).mapM Value.scalarText = .ok ts :=
      mapM_eq_ok_of_forall₂ (List.forall₂_map_left_iff.mpr (List.forall₂_same.mpr fun _ _ => rfl))
    rw [Value.toItem?_list, htexts]
    rfl
  | assoc pairs =>
    cases h
    have hpairs : (pairs.entries.map fun p => (Value.text p.1, Value.text p.2)).mapM
        Value.scalarPair = .ok pairs.entries :=
      mapM_eq_ok_of_forall₂ (List.forall₂_map_left_iff.mpr (List.forall₂_same.mpr fun _ _ => rfl))
    rw [Value.toItem?_of_entries rfl, hpairs, Except.map, Assoc.ofPairs_entries]

/-- The items of the three shapes have raw values. -/
theorem exists_raw_eq_ok {i : Item Value} (h : i.isShaped = true) : ∃ v, i.raw = .ok v := by
  cases i with
  | bare v => cases h
  | _ => exact ⟨_, rfl⟩

end Item

/-! ## Contexts made from raw values -/

namespace Context

/-- A new name with its value goes to the end. -/
theorem bind_of_get?_eq_none {c : Context} {name value : Value} {x : Key} {i : Item Value}
    (hi : value.toItem? = .ok (some i)) (hx : name.key = .ok x)
    (hnew : c.entries.get? name = none) :
    c.bind name value = .ok ⟨c.entries ++ [(name, i)]⟩ := by
  rw [bind_of_key_eq_ok hx, hi, ← Entries.put_of_get?_eq_none hnew]
  rfl

/-- Values under new names are added one after the other. -/
theorem foldlM_bind_of_isProper {pairs : List (Value × Value)} {back : Entries Value (Item Value)}
    (hitems : List.Forall₂ (fun e p => p.1 = e.1 ∧ p.2.toItem? = .ok (some e.2)) back pairs)
    (front : Entries Value (Item Value)) (hproper : IsProper ⟨front ++ back⟩) :
    pairs.foldlM (fun (c : Context) p => c.bind p.1 p.2) ⟨front⟩ = .ok ⟨front ++ back⟩ := by
  -- the entries in front are in the context, and no name that is left is equal to one of theirs
  induction hitems generalizing front with
  | nil => rw [List.append_nil, List.foldlM_nil, pure_eq_ok]
  | @cons e p back pairs hp _ ih =>
    obtain ⟨hname, hi⟩ := hp
    have hkeys : Entries.keys (front ++ e :: back) = front.keys ++ e.1 :: Entries.keys back := by
      rw [Entries.keys, List.map_append, List.map_cons]
      rfl
    obtain ⟨x, hx⟩ := hproper.hashable e.1 (by simp [hkeys])
    have hdistinct := hproper.distinct
    rw [hkeys, List.pairwise_append] at hdistinct
    -- the names of a proper context are different, so that this one goes to the end
    have hnew : Entries.get? e.1 front = none :=
      Entries.get?_eq_none_iff_forall.mpr fun k hk => hdistinct.2.2 k hk e.1 List.mem_cons_self
    have hbind : Context.bind ⟨front⟩ p.1 p.2 = .ok ⟨front ++ [e]⟩ := by
      rw [hname]
      exact bind_of_get?_eq_none hi hx hnew
    have hsplit : front ++ e :: back = front ++ [e] ++ back := by
      rw [List.append_assoc, List.singleton_append]
    rw [List.foldlM_cons, hbind, hsplit]
    exact ih (front ++ [e]) (by rwa [← hsplit])

/-- The raw values of a context make the context. -/
theorem ofValue_rawValues {c : Context} (hproper : c.IsProper) (hshape : c.IsShaped) :
    ∃ raw, c.rawValues = .ok raw ∧ ofValue raw = .ok c := by
  -- every item has a raw value, from which it is made again
  have hstep : ∀ e ∈ c.entries, ∃ p, (do return (e.1, ← e.2.raw) : Except Fault (Value × Value)) =
      .ok p := fun e he => exists_bind_pure_eq_ok_iff.mpr (Item.exists_raw_eq_ok (hshape e he))
  obtain ⟨pairs, hpairs⟩ := exists_mapM_eq_ok_iff.mpr hstep
  have hitems : List.Forall₂ (fun e p => p.1 = e.1 ∧ p.2.toItem? = .ok (some e.2)) c.entries
      pairs := by
    refine (forall₂_of_mapM_eq_ok hpairs).imp fun e p hp => ?_
    obtain ⟨v, hv, hpure⟩ := bind_eq_ok.mp hp
    cases hpure
    exact ⟨rfl, Item.toItem?_of_raw_eq_ok hv⟩
  refine ⟨.map pairs, bind_eq_ok.mpr ⟨pairs, hpairs, rfl⟩, ?_⟩
  exact foldlM_bind_of_isProper hitems [] hproper

end Context

/-! ## Equality with itself -/

namespace Value

/-- An item of one of the three shapes is a name: only texts are in it. -/
theorem isName_item {i : Item Value} (h : i.isShaped = true) : (item i).IsName := by
  cases i with
  | bare v => cases h
  | atom t => exact ⟨[.atom t], rfl, by simp⟩
  | list ts => exact ⟨[.texts ts], rfl, by simp⟩
  | assoc pairs => exact ⟨[.assoc pairs.entries], rfl, by simp⟩

/-- An item of one of the three shapes is equal to itself. -/
theorem equalItem_self {i : Item Value} (h : i.isShaped = true) :
    equalItem i (item i) = .ok true := by
  have hbare : ∀ v, i ≠ .bare v := by
    rintro v rfl
    cases h
  -- items of the three shapes are compared by their keys
  rw [equalItem.eq_3 i (item i) hbare fun v _ hi => absurd hi (hbare v)]
  exact congrArg Except.ok (isName_iff.mp (isName_item h))

/-- Bindings are found in a mapping that holds them. -/
theorem equalBindings_eq_true {bindings : List (Value × Item Value)} {bs : List (Value × Value)}
    (h : ∀ e ∈ bindings, Entries.get? e.1 bs = some (item e.2) ∧ e.2.isShaped = true) :
    equalBindings bindings bs = .ok true := by
  induction bindings with
  | nil => rw [equalBindings]
  | cons e rest ih =>
    obtain ⟨⟨hget, hshape⟩, hrest⟩ := List.forall_mem_cons.mp h
    rw [equalBindings, hget]
    exact bind_eq_ok.mpr ⟨true, equalItem_self hshape, ih hrest⟩

end Value

namespace Context

variable {c : Context}

/-- A name that is equal to itself finds its own item. -/
theorem get?_of_mem (hproper : c.IsProper) {e : Value × Item Value} (he : e ∈ c.entries)
    (hname : e.1.IsName) : c.entries.get? e.1 = some e.2 :=
  Entries.get?_of_mem hproper.distinct he (Value.isName_iff.mp hname)

/-- A context is equal to itself if its names are. -/
theorem equal_self (hproper : c.IsProper) (hshape : c.IsShaped)
    (hnames : ∀ n ∈ c.entries.keys, n.IsName) : Value.equal c.toValue c.toValue = .ok true := by
  -- contexts are compared by looking up the names of the one in the other
  rw [toValue, Value.equal]
  simp only [Value.entries?, List.length_map, if_true]
  refine Value.equalBindings_eq_true fun e he => ⟨?_, hshape e he⟩
  rw [Entries.get?_map, get?_of_mem hproper he (hnames e.1 (List.mem_map_of_mem he))]
  rfl

end Context

/-! ## Scalars in collections -/

namespace Value

/-- The text of a scalar is that of the atom it stands for. -/
theorem toItem?_of_scalarText_eq_ok {v : Value} {t : Text} (h : v.scalarText = .ok t) :
    v.toItem? = .ok (some (.atom t)) := by
  rw [toItem?_of_isScalar (exists_scalarText_eq_ok_iff.mp ⟨t, h⟩), h]
  rfl

/-- A list or a tuple of scalars is the list of their atoms' texts. -/
theorem toItem?_of_scalars {vs : List Value} (h : ∀ v ∈ vs, v.IsScalar) :
    ∃ ts, List.Forall₂ (fun v t => v.toItem? = .ok (some (.atom t))) vs ts ∧
      (list vs).toItem? = .ok (some (.list ts)) ∧ (tuple vs).toItem? = .ok (some (.list ts)) := by
  obtain ⟨ts, hts⟩ := exists_mapM_eq_ok_iff.mpr fun v hv => exists_scalarText_eq_ok_iff.mpr (h v hv)
  refine ⟨ts, (forall₂_of_mapM_eq_ok hts).imp fun _ _ => toItem?_of_scalarText_eq_ok, ?_, ?_⟩
  · rw [toItem?_list, hts]
    rfl
  · rw [toItem?_tuple, hts]
    rfl

/-- The first member that is no scalar is refused. -/
theorem toItem?_of_not_scalars {vs : List Value} (h : ∃ v ∈ vs, ¬ v.IsScalar) :
    ∃ pre v post f, vs = pre ++ v :: post ∧ (∀ u ∈ pre, u.IsScalar) ∧ ¬ v.IsScalar ∧
      (list vs).toItem? = .error f ∧ (tuple vs).toItem? = .error f ∧
      (v.CanBeShown ∧ f.kind = .type ∨ v.inspect = .error f ∧ IsUnshown f) := by
  simp only [← exists_scalarText_eq_ok_iff] at h ⊢
  -- the pass stops at the first member without a text
  obtain ⟨pre, v, post, f, hfirst⟩ := exists_firstFails h
  refine ⟨pre, v, post, f, hfirst.split, hfirst.before, ?_, ?_, ?_, ?_⟩
  · exact fun ⟨_, ht⟩ => ne_ok_of_eq_error hfirst.fails ht
  · rw [toItem?_list, hfirst.mapM_eq]
    rfl
  · rw [toItem?_tuple, hfirst.mapM_eq]
    rfl
  · exact scalarText_eq_error hfirst.fails

section Mappings

variable {v : Value} {entries : List (Value × Value)} {keys : List Text}

/-- A mapping of scalars is the association of their atoms' texts, under the texts of its keys. -/
theorem toItem?_of_scalar_values (hentries : v.entries? = some entries)
    (hkeys : entries.mapM (fun e => e.1.toText) = .ok keys) (hdistinct : keys.Nodup)
    (h : ∀ e ∈ entries, e.2.IsScalar) :
    ∃ pairs : Assoc, v.toItem? = .ok (some (.assoc pairs)) ∧ pairs.entries.keys = keys ∧
      List.Forall₂ (fun e p => e.1.toText = .ok p.1 ∧ e.2.toItem? = .ok (some (.atom p.2)))
        entries pairs.entries := by
  -- names and values are written entry by entry
  have hstep : ∀ e ∈ entries, ∃ p, scalarPair e = .ok p := fun e he =>
    exists_scalarPair_eq_ok_iff.mpr ⟨exists_mapM_eq_ok_iff.mp ⟨keys, hkeys⟩ e he, h e he⟩
  obtain ⟨ps, hps⟩ := exists_mapM_eq_ok_iff.mpr hstep
  have htexts : List.Forall₂ (fun e p => e.1.toText = .ok p.1 ∧ e.2.scalarText = .ok p.2)
      entries ps := by
    refine (forall₂_of_mapM_eq_ok hps).imp fun e p hp => ?_
    obtain ⟨key, hkey, hrest⟩ := bind_eq_ok.mp hp
    obtain ⟨value, hvalue, hpure⟩ := bind_eq_ok.mp hrest
    cases hpure
    exact ⟨hkey, hvalue⟩
  have hfirst : ps.map (·.1) = keys := by
    have hmap : entries.mapM (fun e => e.1.toText) = .ok (ps.map (·.1)) :=
      mapM_eq_ok_of_forall₂ (List.forall₂_map_right_iff.mpr (htexts.imp fun _ _ => And.left))
    rw [hkeys] at hmap
    exact (Except.ok.inj hmap).symm
  -- different names stay different entries, none of which overwrites another
  have hps' : (Assoc.ofPairs ps).entries = ps := Assoc.entries_ofPairs (hfirst ▸ hdistinct)
  refine ⟨.ofPairs ps, ?_, ?_, ?_⟩
  · rw [toItem?_of_entries hentries, hps]
    rfl
  · rw [hps']
    exact hfirst
  · rw [hps']
    exact htexts.imp fun _ _ hp => ⟨hp.1, toItem?_of_scalarText_eq_ok hp.2⟩

/-- The first value that is no scalar is refused. -/
theorem toItem?_of_not_scalar_values (hentries : v.entries? = some entries)
    (hkeys : entries.mapM (fun e => e.1.toText) = .ok keys) (h : ∃ e ∈ entries, ¬ e.2.IsScalar) :
    ∃ pre e post f, entries = pre ++ e :: post ∧ (∀ d ∈ pre, d.2.IsScalar) ∧ ¬ e.2.IsScalar ∧
      v.toItem? = .error f ∧
      (e.2.CanBeShown ∧ f.kind = .type ∨ e.2.inspect = .error f ∧ IsUnshown f) := by
  have hkey : ∀ e ∈ entries, ∃ t, e.1.toText = .ok t := exists_mapM_eq_ok_iff.mp ⟨keys, hkeys⟩
  have hstep : ∃ e ∈ entries, ¬ ∃ p, scalarPair e = .ok p := by
    obtain ⟨e, he, hno⟩ := h
    exact ⟨e, he, fun hp => hno (exists_scalarPair_eq_ok_iff.mp hp).2⟩
  -- the pass stops at the first entry that is not written
  obtain ⟨pre, e, post, f, hfirst⟩ := exists_firstFails hstep
  obtain ⟨key, hekey⟩ := hkey e (by simp [hfirst.split])
  -- the name of the entry is written, so that the fault is that of the value
  have hvalue : e.2.scalarText = .error f := by
    rcases bind_eq_error.mp hfirst.fails with hf | ⟨_, -, hrest⟩
    · exact absurd hekey (ne_ok_of_eq_error hf)
    · exact (bind_eq_error.mp hrest).resolve_right fun ⟨_, _, hpure⟩ => pure_ne_error hpure
  refine ⟨pre, e, post, f, hfirst.split, fun d hd => ?_, fun hscalar => ?_, ?_, ?_⟩
  · exact (exists_scalarPair_eq_ok_iff.mp (hfirst.before d hd)).2
  · obtain ⟨_, ht⟩ := exists_scalarText_eq_ok_iff.mpr hscalar
    exact ne_ok_of_eq_error hvalue ht
  · rw [toItem?_of_entries hentries, hfirst.mapM_eq]
    rfl
  · exact scalarText_eq_error hvalue

end Mappings

/-- Items and their raw values are interchangeable.  A context with items of the three shapes is
the one made from their raw values.  A list or a tuple of scalars has the texts of the atoms that
they stand for, and so has a mapping, under the texts of its keys and in its order, if no two of
these are the same.  Another value among the scalars is refused: with a type error if it can be
shown, and else with the fault of showing it. -/
theorem raw_and_wrapped_agree (c : Context) (vs : List Value) (mapping : Value) :
    ((∃ pairs, Context.ofPairs pairs = .ok c) → c.IsShaped →
      ∃ raw, c.rawValues = .ok raw ∧ Context.ofValue raw = .ok c ∧
        (∀ template, expand template raw = expand template c.toValue) ∧
        ((∀ n ∈ c.entries.keys, n.IsName) →
          (∀ e ∈ c.entries, c.get? e.1 = .ok (some e.2)) ∧
          equal c.toValue c.toValue = .ok true)) ∧
    (((∀ v ∈ vs, v.IsScalar) →
        ∃ ts, List.Forall₂ (fun v t => v.toItem? = .ok (some (.atom t))) vs ts ∧
          (list vs).toItem? = .ok (some (.list ts)) ∧
          (tuple vs).toItem? = .ok (some (.list ts))) ∧
      ((∃ v ∈ vs, ¬ v.IsScalar) →
        ∃ pre v post f, vs = pre ++ v :: post ∧ (∀ u ∈ pre, u.IsScalar) ∧ ¬ v.IsScalar ∧
          (list vs).toItem? = .error f ∧ (tuple vs).toItem? = .error f ∧
          (v.CanBeShown ∧ f.kind = .type ∨ v.inspect = .error f ∧ IsUnshown f))) ∧
    ∀ entries keys, mapping.entries? = some entries →
      entries.mapM (fun e => e.1.toText) = .ok keys → keys.Nodup →
        ((∀ e ∈ entries, e.2.IsScalar) →
          ∃ pairs : Assoc, mapping.toItem? = .ok (some (.assoc pairs)) ∧
            pairs.entries.keys = keys ∧
            List.Forall₂ (fun e p => e.1.toText = .ok p.1 ∧ e.2.toItem? = .ok (some (.atom p.2)))
              entries pairs.entries) ∧
        ((∃ e ∈ entries, ¬ e.2.IsScalar) →
          ∃ pre e post f, entries = pre ++ e :: post ∧ (∀ d ∈ pre, d.2.IsScalar) ∧
            ¬ e.2.IsScalar ∧ mapping.toItem? = .error f ∧
            (e.2.CanBeShown ∧ f.kind = .type ∨ e.2.inspect = .error f ∧ IsUnshown f)) := by
  refine ⟨?contexts, ⟨toItem?_of_scalars, toItem?_of_not_scalars⟩, ?mappings⟩
  -- a context that was made is proper, and its raw values make it again
  case contexts =>
    intro ⟨pairs, hc⟩ hshape
    have hproper := Context.isProper_of_ofPairs_eq_ok hc
    obtain ⟨raw, hraw, hmade⟩ := Context.ofValue_rawValues hproper hshape
    have hsame : Context.ofValue raw = Context.ofValue c.toValue := hmade
    refine ⟨raw, hraw, hmade, fun template => ?_, fun hnames => ⟨fun e he => ?_, ?_⟩⟩
    · simp only [expand, expandTemplate, hsame]
    · have hname := hnames e.1 (List.mem_map_of_mem he)
      rw [Context.get?_of_isName hname, Context.get?_of_mem hproper he hname]
    · exact Context.equal_self hproper hshape hnames
  case mappings =>
    intro entries keys hentries hkeys hdistinct
    exact ⟨toItem?_of_scalar_values hentries hkeys hdistinct,
      toItem?_of_not_scalar_values hentries hkeys⟩

/-- A context with items of the three shapes, one of them under a number, a list with a truth value,
and a mapping with a key that is no text. -/
theorem raw_and_wrapped_agree_three_shapes :
    ∃ (c : Context) (raw : Value),
      Context.ofPairs [(text "a".toText, text "x".toText), (int 1, list [text "y".toText]),
          (text "m".toText, map [(text "k".toText, text "v".toText)])] = .ok c ∧
        c.IsShaped ∧ c.rawValues = .ok raw ∧ Context.ofValue raw = .ok c ∧
        equal c.toValue c.toValue = .ok true ∧
        (∃ ts, (list [text "x".toText, bool true]).toItem? = .ok (some (.list ts)) ∧
          ts = ["x".toText, "true".toText]) ∧
        ∃ pairs : Assoc,
          (map [(bool true, text "x".toText), (text "b".toText, bool false)]).toItem? =
            .ok (some (.assoc pairs)) ∧
          pairs.entries.keys = ["True".toText, "b".toText] := by
  let c : Context :=
    ⟨[(text "a".toText, .atom "x".toText), (int 1, .list ["y".toText]),
      (text "m".toText, .assoc (.ofPairs [("k".toText, "v".toText)]))]⟩
  have hmade : Context.ofPairs [(text "a".toText, text "x".toText), (int 1, list [text "y".toText]),
      (text "m".toText, map [(text "k".toText, text "v".toText)])] = .ok c := rfl
  have hshape : c.IsShaped := by decide
  obtain ⟨hcontext, hlists, hmapping⟩ := raw_and_wrapped_agree c [text "x".toText, bool true]
    (map [(bool true, text "x".toText), (text "b".toText, bool false)])
  -- each part of the theorem at its own value
  obtain ⟨raw, hraw, hback, -, hequal⟩ := hcontext ⟨_, hmade⟩ hshape
  have hnames : ∀ n ∈ c.entries.keys, n.IsName := by
    have ha : (text "a".toText).IsName := ⟨_, rfl, by decide⟩
    have hone : (int 1).IsName := ⟨_, rfl, by decide⟩
    have hm : (text "m".toText).IsName := ⟨_, rfl, by decide⟩
    simp [c, Entries.keys, ha, hone, hm]
  obtain ⟨ts, -, hlist, -⟩ := hlists.1
    (List.forall_mem_cons.mpr ⟨trivial, List.forall_mem_singleton.mpr trivial⟩)
  -- the truth value is written as in a template
  have hts : ts = ["x".toText, "true".toText] := by
    have hrun : (list [text "x".toText, bool true]).toItem? =
        .ok (some (.list ["x".toText, "true".toText])) := rfl
    rw [hrun] at hlist
    cases hlist
    rfl
  obtain ⟨pairs, hpairs, hkeys, -⟩ :=
    (hmapping [(bool true, text "x".toText), (text "b".toText, bool false)]
      ["True".toText, "b".toText] rfl rfl (by decide)).1
      (List.forall_mem_cons.mpr ⟨trivial, List.forall_mem_singleton.mpr trivial⟩)
  exact ⟨c, raw, hmade, hshape, hraw, hback, (hequal hnames).2, ⟨ts, hlist, hts⟩, pairs, hpairs,
    hkeys⟩

/-- A list among the members of a list is no scalar, but it is not refused with a type error if an
integer in it has too many digits. -/
theorem toItem?_oversized_member :
    ∃ v : Value, v = list [int (Nat.pow 10 Text.digitLimit)] ∧ ¬ v.IsScalar ∧
      ∃ f, (list [v]).toItem? = .error f ∧ f.kind = .value := by
  -- only that the integer is large matters, and not its digits
  obtain ⟨n, hpow⟩ : ∃ n, n = Nat.pow 10 Text.digitLimit := ⟨_, rfl⟩
  have hlong : Nat.pow 10 Text.digitLimit ≤ n := Nat.le_of_eq hpow.symm
  have hrun : (list [list [int n]]).toItem? = .error (.misuse .oversized) :=
    toItem?_nested (inspect_oversized hlong)
  rw [← hpow]
  exact ⟨_, rfl, id, _, hrun, rfl⟩

end Value

end UriTemplate
