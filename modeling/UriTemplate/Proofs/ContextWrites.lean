import Mathlib.Data.List.Induction
import UriTemplate.Proofs.Conversions

/-!
# What a context holds

A context is made by writing names one after the other: a write keeps the place of a name that is
there, a null value takes the name away, and a name that comes again goes to the end.  Here this is
said of the pairs as a whole, without running anything: a name is bound to the item of the value
given last for it (`lastGiven`), and the names stand in the order of the earliest pairs that bind
them and that no null value comes after (`Opens`).

`Context.HoldsWrites` is what the pairs in front have made of the context; one lemma for each way
to write takes it over the next pair.  A value that has no item stops the pass, whatever comes
behind it (`Context.ofValue_holds_last_writes`).
-/

namespace UriTemplate

/-! ## Names and pairs -/

namespace Value

/-- A value that can be looked up as a name: it has a key, and it is equal to itself. -/
def IsName (v : Value) : Prop := ∃ k, v.key = .ok k ∧ KeyToken.nan ∉ k

/-- A name is what is the same key as itself, which only a key with NaN in it is not. -/
theorem isName_iff {v : Value} : v.IsName ↔ (v == v) = true := by
  rw [beq_iff]
  constructor
  · intro ⟨k, hk, hnan⟩
    exact ⟨k, hk, hk, hnan⟩
  · intro ⟨k, hk, _, hnan⟩
    exact ⟨k, hk, hnan⟩

/-- A value gives names with their values: a mapping gives its entries, and any other collection
its members, if each of them is a pair. -/
inductive Gives : Value → List (Value × Value) → Prop
  | entries (pairs : List (Value × Value)) : Gives (map pairs) pairs
  | members {v : Value} {ms : List Value} {pairs : List (Value × Value)}
      (hentries : v.entries? = none) (hmembers : v.members = .ok ms)
      (hpairs : ms.mapM unpair = .ok pairs) : Gives v pairs

/-- An empty value has no members, or it cannot be asked for them. -/
theorem eq_nil_of_isEmpty {v : Value} {ms : List Value} (hempty : v.isEmpty = true)
    (hmembers : v.members = .ok ms) : ms = [] := by
  -- where members are made of something else, there are as many of them as of that
  have hmap {α : Type} (f : α → Value) {xs : List α} (hxs : xs.isEmpty = true) : xs.map f = [] :=
    List.map_eq_nil_iff.mpr (List.isEmpty_iff.mp hxs)
  cases v with
  | list vs | tuple vs | set vs | looseTemplate vs =>
    cases hmembers
    exact List.isEmpty_iff.mp hempty
  | text t | bytes bs | map entries | context entries =>
    cases hmembers
    exact hmap _ hempty
  | item i =>
    cases i with
    | list ts =>
      cases hmembers
      exact hmap _ hempty
    | assoc pairs =>
      cases hmembers
      rw [Entries.keys, List.map_map]
      exact hmap _ hempty
    | _ => cases hmembers
  | node n =>
    cases n with
    | template t =>
      cases hmembers
      exact hmap _ hempty
    | _ => cases hmembers
  -- nothing else can be asked for its members
  | _ => cases hmembers

end Value

/-- Pairs that are taken apart one by one are bound like pairs that are at hand. -/
theorem Context.foldlM_bindPair {ms : List Value} {pairs : List (Value × Value)}
    (h : ms.mapM Value.unpair = .ok pairs) (c : Context) :
    ms.foldlM Context.bindPair c = pairs.foldlM (fun c p => c.bind p.1 p.2) c := by
  induction ms generalizing pairs c with
  | nil =>
    obtain rfl := mapM_nil_eq_ok.mp h
    rfl
  | cons m ms ih =>
    obtain ⟨p, ps, hp, hps, rfl⟩ := mapM_cons_eq_ok.mp h
    -- taking the pair apart comes first, and it is known to succeed
    have hbind : Context.bindPair c m = c.bind p.1 p.2 := by
      rw [Context.bindPair, hp]
      rfl
    rw [List.foldlM_cons, List.foldlM_cons, hbind]
    exact congrArg (c.bind p.1 p.2 >>= ·) (funext fun c' => ih hps c')

/-- The context of a value that gives pairs is that of the pairs. -/
theorem Context.ofValue_of_gives {source : Value} {pairs : List (Value × Value)}
    (h : source.Gives pairs) : Context.ofValue source = Context.ofPairs pairs := by
  cases h with
  | entries => rfl
  | @members _ ms _ hentries hmembers hpairs =>
    -- all kinds of values but mappings go the same way
    have hvalue : Context.ofValue source =
        if source.isEmpty then .ok empty else source.members >>= (·.foldlM bindPair empty) := by
      cases source with
      | map entries => cases hentries
      | context entries => cases hentries
      | _ => rfl
    rw [hvalue, hmembers]
    split
    · -- an empty value gives no pairs, and its members are not asked for
      next hempty =>
      obtain rfl := Value.eq_nil_of_isEmpty hempty hmembers
      obtain rfl := mapM_nil_eq_ok.mp hpairs
      rfl
    · exact Context.foldlM_bindPair hpairs empty

/-! ## The value given last -/

/-- The value given last for a name: that of the last pair with an equal name, and the null value
if there is no such pair. -/
def lastGiven (pairs : List (Value × Value)) (n : Value) : Value :=
  match pairs.reverse.find? fun p => p.1 == n with
  | some p => p.2
  | none => .null

/-- One more pair counts for its own name. -/
theorem lastGiven_append (front : List (Value × Value)) (p : Value × Value) (n : Value) :
    lastGiven (front ++ [p]) n = if p.1 == n then p.2 else lastGiven front n := by
  rw [lastGiven, List.reverse_append, List.reverse_singleton, List.singleton_append,
    List.find?_cons]
  cases p.1 == n with
  | true => rfl
  | false => rfl

/-! ## The places of names -/

/-- A name is bound from a place on: the pair there is one for it, and neither this pair nor a
later one for the name takes it away. -/
structure BindsFrom (pairs : List (Value × Value)) (n : Value) (i : Nat) : Prop where
  pair : ∃ p, pairs[i]? = some p ∧ (p.1 == n) = true
  kept : ∀ q ∈ pairs.drop i, (q.1 == n) = true → q.2 ≠ .null

/-- A name has its place among the others from a pair: it is the name of this pair, and there is no
earlier one from which it is bound. -/
structure Opens (pairs : List (Value × Value)) (i : Nat) (n : Value) : Prop where
  name : pairs[i]?.map (·.1) = some n
  binds : BindsFrom pairs n i
  earliest : ∀ j, BindsFrom pairs n j → i ≤ j

namespace BindsFrom

variable {pairs front : List (Value × Value)} {p : Value × Value} {n : Value} {i : Nat}

/-- A place is a place among the pairs. -/
theorem lt (h : BindsFrom pairs n i) : i < pairs.length := by
  obtain ⟨p, hp, -⟩ := h.pair
  exact (List.getElem?_eq_some_iff.mp hp).1

/-- A name stays bound over a pair that does not take it away. -/
theorem append (h : BindsFrom front n i) (hp : (p.1 == n) = true → p.2 ≠ .null) :
    BindsFrom (front ++ [p]) n i where
  pair := by
    rw [List.getElem?_append_left h.lt]
    exact h.pair
  kept := by
    rw [List.drop_append_of_le_length (Nat.le_of_lt h.lt), List.forall_mem_append]
    exact ⟨h.kept, List.forall_mem_singleton.mpr hp⟩

/-- A pair at the end does not matter for a place in front of it. -/
theorem of_append (h : BindsFrom (front ++ [p]) n i) (hi : i < front.length) :
    BindsFrom front n i where
  pair := by
    have hpair := h.pair
    rwa [List.getElem?_append_left hi] at hpair
  kept := by
    have hkept := h.kept
    rw [List.drop_append_of_le_length (Nat.le_of_lt hi), List.forall_mem_append] at hkept
    exact hkept.1

/-- A pair that does not take its name away binds it. -/
theorem last (hname : (p.1 == n) = true) (hvalue : p.2 ≠ .null) :
    BindsFrom (front ++ [p]) n front.length where
  pair := ⟨p, List.getElem?_concat_length, hname⟩
  kept := by
    rw [List.drop_left]
    exact List.forall_mem_singleton.mpr fun _ => hvalue

/-- A name that is bound from some place on is not taken away last. -/
theorem lastGiven_ne_null (h : BindsFrom pairs n i) : lastGiven pairs n ≠ .null := by
  -- from the end, where the pair stands that decides for its name
  induction pairs using List.reverseRecOn with
  | nil => exact absurd h.lt (Nat.not_lt_zero i)
  | append_singleton front p ih =>
    rw [lastGiven_append]
    have hlt := h.lt
    rw [List.length_append, List.length_singleton] at hlt
    split
    · next hname =>
      refine h.kept p ?_ hname
      rw [List.drop_append_of_le_length (Nat.le_of_lt_succ hlt)]
      exact List.mem_append_right _ List.mem_cons_self
    · next hname =>
      -- the pair at the place is not the last one, which is for another name
      refine ih (h.of_append (Nat.lt_of_le_of_ne (Nat.le_of_lt_succ hlt) ?_))
      rintro rfl
      obtain ⟨q, hq, hqname⟩ := h.pair
      rw [List.getElem?_concat_length] at hq
      cases hq
      exact hname hqname

end BindsFrom

namespace Opens

variable {front : List (Value × Value)} {p : Value × Value} {n : Value} {i : Nat}

/-- A name keeps its place over a pair that does not take it away. -/
theorem append (h : Opens front i n) (hp : (p.1 == n) = true → p.2 ≠ .null) :
    Opens (front ++ [p]) i n where
  name := by
    rw [List.getElem?_append_left h.binds.lt]
    exact h.name
  binds := h.binds.append hp
  earliest j hj := by
    -- an earlier place would have been one before the pair came, and a later one is no matter
    by_cases hlt : j < front.length
    · exact h.earliest j (hj.of_append hlt)
    · exact Nat.le_of_lt (Nat.lt_of_lt_of_le h.binds.lt (Nat.le_of_not_lt hlt))

/-- A name that is bound to nothing has its place from the pair that binds it. -/
theorem last (hname : p.1.IsName) (hvalue : p.2 ≠ .null)
    (hnew : ∀ j, ¬ BindsFrom front p.1 j) : Opens (front ++ [p]) front.length p.1 where
  name := by rw [List.getElem?_concat_length, Option.map_some]
  binds := .last (Value.isName_iff.mp hname) hvalue
  earliest j hj := Nat.le_of_not_lt fun hlt => hnew j (hj.of_append hlt)

end Opens

/-! ## Writing -/

namespace Context

/-- Binding a name to a value writes the item of the value or takes the name away. -/
theorem of_bind_eq_ok {c c' : Context} {name value : Value} (h : c.bind name value = .ok c') :
    (∃ i k, value.toItem? = .ok (some i) ∧ name.key = .ok k ∧ c' = ⟨c.entries.put name i⟩) ∨
      value.toItem? = .ok none ∧ c' = ⟨c.entries.remove name⟩ := by
  obtain ⟨i?, hi, hrest⟩ := bind_eq_ok.mp h
  -- there is an item to write, or a name to take away
  cases i? with
  | some i =>
    obtain ⟨_, hdiscard, hpure⟩ := bind_eq_ok.mp hrest
    obtain ⟨k, hk, -⟩ := map_eq_ok.mp hdiscard
    cases hpure
    exact .inl ⟨i, k, hi, hk, rfl⟩
  | none =>
    refine .inr ⟨hi, ?_⟩
    obtain ⟨entries⟩ := c
    -- taking a name away from an empty context does not ask for its key
    cases entries with
    | nil =>
      cases hrest
      rfl
    | cons e rest =>
      obtain ⟨_, -, hpure⟩ := bind_eq_ok.mp hrest
      cases hpure
      rfl

/-- Under a name that has a key, it does so just if the value can be converted. -/
theorem bind_of_key_eq_ok {name : Value} {x : Key} (hx : name.key = .ok x) (c : Context)
    (value : Value) :
    c.bind name value = value.toItem?.map fun
      | some i => ⟨c.entries.put name i⟩
      | none => ⟨c.entries.remove name⟩ := by
  rw [bind, hx]
  cases value.toItem? with
  | error f => rfl
  | ok i? =>
    cases i? with
    | some i => rfl
    | none =>
      obtain ⟨entries⟩ := c
      -- here the key is known, so that it makes no difference whether it is asked for
      cases entries with
      | nil => rfl
      | cons e rest => rfl

/-! ## Names of a context -/

/-- The names of a context have keys, and no two of them are equal. -/
structure IsProper (c : Context) : Prop where
  hashable : ∀ k ∈ c.entries.keys, ∃ x, k.key = .ok x
  distinct : c.entries.keys.Pairwise fun a b => (a == b) = false

/-- The empty context has no names. -/
theorem isProper_empty : empty.IsProper := ⟨List.forall_mem_nil _, .nil⟩

section Names

variable {c : Context}

/-- Writing a name that has a key leaves a context proper. -/
theorem IsProper.put (h : c.IsProper) {name : Value} {x : Key} (hx : name.key = .ok x)
    (i : Item Value) : IsProper ⟨c.entries.put name i⟩ := by
  -- a name that is there stays what it was, and a new one is different from all that are there
  cases hget : c.entries.get? name with
  | some old =>
    have hkeys := Entries.keys_put_of_get?_eq_some hget i
    exact ⟨hkeys ▸ h.hashable, hkeys ▸ h.distinct⟩
  | none =>
    have hkeys := Entries.keys_put_of_get?_eq_none hget i
    have hnew := Entries.get?_eq_none_iff_forall.mp hget
    constructor
    · rw [hkeys, List.forall_mem_append]
      exact ⟨h.hashable, List.forall_mem_singleton.mpr ⟨x, hx⟩⟩
    · rw [hkeys, List.pairwise_append]
      exact ⟨h.distinct, List.pairwise_singleton _ _, fun k hk =>
        List.forall_mem_singleton.mpr (hnew k hk)⟩

/-- So does taking a name away. -/
theorem IsProper.remove (h : c.IsProper) (name : Value) : IsProper ⟨c.entries.remove name⟩ := by
  constructor
  · rw [Entries.keys_remove]
    exact fun k hk => h.hashable k (List.mem_filter.mp hk).1
  · rw [Entries.keys_remove]
    exact h.distinct.filter _

/-- So does binding, which does one or the other. -/
theorem IsProper.bind (h : c.IsProper) {c' : Context} {name value : Value}
    (hbind : c.bind name value = .ok c') : c'.IsProper := by
  obtain ⟨i, x, -, hx, rfl⟩ | ⟨-, rfl⟩ := of_bind_eq_ok hbind
  · exact h.put hx i
  · exact h.remove name

/-- The contexts that are made of pairs are proper. -/
theorem isProper_of_ofPairs_eq_ok {pairs : List (Value × Value)} (h : ofPairs pairs = .ok c) :
    c.IsProper := by
  -- every step of the pass keeps the names proper
  refine Ends.ok (Q := fun _ => True) (Ends.foldlM (P := fun _ (c : Context) => c.IsProper)
    (fun _ p _ c _ hc => ?_) isProper_empty) h
  cases hbind : c.bind p.1 p.2 with
  | ok c' => exact hc.bind hbind
  | error f => trivial

end Names

/-! ## The order of writes -/

/-- What pairs make of a context: a name is bound to the item of the value given last for it, and
the names stand in the order of the pairs that they have their places from. -/
structure HoldsWrites (c : Context) (pairs : List (Value × Value)) : Prop where
  item : ∀ n, (lastGiven pairs n).toItem? = .ok (c.entries.get? n)
  placed : ∃ places : List (Nat × Value), places.map (·.2) = c.entries.keys ∧
    (places.map (·.1)).Pairwise (· < ·) ∧ ∀ e ∈ places, Opens pairs e.1 e.2

/-- Nothing is bound before the first pair. -/
theorem holdsWrites_empty : empty.HoldsWrites [] :=
  ⟨fun _ => rfl, [], rfl, .nil, List.forall_mem_nil _⟩

section Steps

variable {c : Context} {front : List (Value × Value)} {p : Value × Value}

/-- A written item is that of the value given last for its name. -/
theorem HoldsWrites.item_put (h : c.HoldsWrites front) {i : Item Value}
    (hi : p.2.toItem? = .ok (some i)) (n : Value) :
    (lastGiven (front ++ [p]) n).toItem? = .ok ((c.entries.put p.1 i).get? n) := by
  rw [lastGiven_append, Entries.get?_put]
  split
  · exact hi
  · exact h.item n

/-- A name that is there keeps its place. -/
theorem HoldsWrites.overwrite (h : c.HoldsWrites front) {i old : Item Value}
    (hi : p.2.toItem? = .ok (some i)) (hold : c.entries.get? p.1 = some old) :
    HoldsWrites ⟨c.entries.put p.1 i⟩ (front ++ [p]) where
  item := h.item_put hi
  placed := by
    obtain ⟨places, hkeys, hsorted, hopens⟩ := h.placed
    -- the places stay as they are: a value that has an item takes nothing away
    have hvalue := Value.ne_null_of_toItem?_eq_some hi
    refine ⟨places, ?_, hsorted, fun e he => (hopens e he).append fun _ => hvalue⟩
    rw [hkeys, Entries.keys_put_of_get?_eq_some hold]

/-- A new name goes to the end. -/
theorem HoldsWrites.insert (h : c.HoldsWrites front) (hname : p.1.IsName) {i : Item Value}
    (hi : p.2.toItem? = .ok (some i)) (hnew : c.entries.get? p.1 = none) :
    HoldsWrites ⟨c.entries.put p.1 i⟩ (front ++ [p]) where
  item := h.item_put hi
  placed := by
    obtain ⟨places, hkeys, hsorted, hopens⟩ := h.placed
    have hvalue := Value.ne_null_of_toItem?_eq_some hi
    -- a place further in front would mean that the context holds the name already
    have hunbound : ∀ j, ¬ BindsFrom front p.1 j := by
      intro j hj
      have hnone := h.item p.1
      rw [hnew] at hnone
      exact hj.lastGiven_ne_null (Value.eq_null_of_toItem?_eq_none hnone)
    -- the pair is behind all others, and so is its place
    refine ⟨places ++ [(front.length, p.1)], ?_, ?_, ?_⟩
    · rw [Entries.keys_put_of_get?_eq_none hnew, List.map_append, hkeys]
      rfl
    · rw [List.map_append, List.pairwise_append]
      refine ⟨hsorted, List.pairwise_singleton _ _, List.forall_mem_map.mpr fun e he => ?_⟩
      exact List.forall_mem_singleton.mpr (hopens e he).binds.lt
    · rw [List.forall_mem_append]
      exact ⟨fun e he => (hopens e he).append fun _ => hvalue,
        List.forall_mem_singleton.mpr (.last hname hvalue hunbound)⟩

/-- A null value takes its name away and leaves the others where they are. -/
theorem HoldsWrites.remove (h : c.HoldsWrites front) (hnull : p.2 = .null) :
    HoldsWrites ⟨c.entries.remove p.1⟩ (front ++ [p]) where
  item n := by
    rw [lastGiven_append, Entries.get?_remove, hnull]
    split
    · rfl
    · exact h.item n
  placed := by
    obtain ⟨places, hkeys, hsorted, hopens⟩ := h.placed
    -- the places of the other names, over which the pair has no power
    refine ⟨places.filter fun e => !(e.2 == p.1), ?_, ?_, fun e he => ?_⟩
    · rw [Entries.keys_remove, ← hkeys, List.filter_map]
      rfl
    · exact hsorted.sublist (List.filter_sublist.map _)
    · obtain ⟨hmem, hother⟩ := List.mem_filter.mp he
      refine (hopens e hmem).append fun hsame => ?_
      rw [BEq.symm hsame] at hother
      cases hother

/-- One more pair is written or taken away, or its value has no item. -/
theorem HoldsWrites.bind (h : c.HoldsWrites front) (hname : p.1.IsName) :
    Ends (fun c' => c'.HoldsWrites (front ++ [p]) ∧ p.2.HasItem) (fun f => p.2.toItem? = .error f)
      (c.bind p.1 p.2) := by
  obtain ⟨x, hx, -⟩ := id hname
  rw [bind_of_key_eq_ok hx]
  -- the value decides: no item at all, none to bind, or one for an old or a new name
  cases hi : p.2.toItem? with
  | error f => exact rfl
  | ok i? =>
    refine ⟨?_, Value.exists_toItem?_eq_ok_iff.mp ⟨_, hi⟩⟩
    cases i? with
    | none => exact h.remove (Value.eq_null_of_toItem?_eq_none hi)
    | some i =>
      cases hget : c.entries.get? p.1 with
      | some old => exact h.overwrite hi hget
      | none => exact h.insert hname hi hget

end Steps

/-- The whole pass: every value is converted, or the first one that has no item stops it. -/
theorem ofPairs_ends {pairs : List (Value × Value)} (hnames : ∀ p ∈ pairs, p.1.IsName) :
    Ends (fun c => c.HoldsWrites pairs ∧ ∀ p ∈ pairs, p.2.HasItem)
      (fun f => ∃ pre p post, FirstFails (fun p => p.2.toItem?) pairs pre p post f)
      (ofPairs pairs) := by
  -- the invariant says of the pairs in front what the theorem says of all of them
  refine Ends.foldlM
    (P := fun front (c : Context) => c.HoldsWrites front ∧ ∀ p ∈ front, p.2.HasItem)
    (fun front p back c hsplit ⟨hwrites, hitems⟩ => ?_)
    ⟨holdsWrites_empty, List.forall_mem_nil _⟩
  have hname : p.1.IsName := hnames p (by simp [hsplit])
  refine (hwrites.bind hname).imp (fun c' ⟨hc', hp⟩ => ⟨hc', ?_⟩) ?_
  · exact List.forall_mem_append.mpr ⟨hitems, List.forall_mem_singleton.mpr hp⟩
  · intro f hf
    refine ⟨front, p, back, hsplit, fun q hq => ?_, hf⟩
    exact Value.exists_toItem?_eq_ok_iff.mpr (hitems q hq)

/-- What can be a name is looked up without a fault. -/
theorem get?_of_isName {n : Value} (h : n.IsName) (c : Context) :
    c.get? n = .ok (c.entries.get? n) := by
  obtain ⟨k, hk, -⟩ := h
  rw [get?, hk]
  rfl

/-- A name is bound just if it is equal to one of the names of the context. -/
theorem exists_get?_eq_some_iff {n : Value} (h : n.IsName) (c : Context) :
    (∃ i, c.get? n = .ok (some i)) ↔ ∃ m ∈ c.entries.keys, (m == n) = true := by
  have hnone : c.entries.get? n = none ↔ ∀ m ∈ c.entries.keys, (m == n) = false :=
    Entries.get?_eq_none_iff_forall
  rw [get?_of_isName h]
  -- looking up finds nothing just if no name is equal
  cases hget : c.entries.get? n with
  | none =>
    refine iff_of_false (fun ⟨_, hi⟩ => by cases hi) fun ⟨m, hm, hsame⟩ => ?_
    rw [hnone.mp hget m hm] at hsame
    cases hsame
  | some i =>
    refine iff_of_true ⟨i, rfl⟩ (Classical.byContradiction fun hno => ?_)
    have hmissing : c.entries.get? n = none :=
      hnone.mpr fun m hm => Bool.eq_false_iff.mpr fun hsame => hno ⟨m, hm, hsame⟩
    rw [hget] at hmissing
    cases hmissing

/-- A context is made just if every value has an item, and then each name is bound to the item of
the value given last for it, and has the place of the earliest pair that binds it and that no null
value comes after.  Otherwise the first value without an item is refused: with a type error, unless
it cannot be shown.  (If that value is a mapping, it is one whose names have keys, as those of all
mappings have that were made.) -/
theorem ofValue_holds_last_writes {source : Value} {pairs : List (Value × Value)}
    (hsource : source.Gives pairs) (hnames : ∀ p ∈ pairs, p.1.IsName) :
    ((∃ c, ofValue source = .ok c) ↔ ∀ p ∈ pairs, p.2.HasItem) ∧
      (∀ f, ofValue source = .error f →
        ∃ pre p post, pairs = pre ++ p :: post ∧ (∀ q ∈ pre, q.2.HasItem) ∧ ¬ p.2.HasItem ∧
          p.2.toItem? = .error f ∧
          (p.2.NamesHaveKeys → f.kind = .type ∨ Value.IsUnshown f ∧ ¬ p.2.CanBeShown)) ∧
      ∀ c, ofValue source = .ok c →
        (∀ n : Value, n.IsName →
          ∃ i?, (lastGiven pairs n).toItem? = .ok i? ∧ c.get? n = .ok i?) ∧
        ∃ places : List (Nat × Value), c.toValue.members = .ok (places.map (·.2)) ∧
          (places.map (·.1)).Pairwise (· < ·) ∧ (∀ e ∈ places, Opens pairs e.1 e.2) ∧
          (places.map (·.2)).Pairwise (fun a b => (a == b) = false) ∧
          ∀ n : Value, n.IsName →
            ((∃ i, c.get? n = .ok (some i)) ↔ ∃ m ∈ places.map (·.2), (m == n) = true) := by
  rw [ofValue_of_gives hsource]
  have hends := ofPairs_ends hnames
  -- the pass stops at the first value without an item
  have herror : ∀ f, ofPairs pairs = .error f →
      ∃ pre p post, pairs = pre ++ p :: post ∧ (∀ q ∈ pre, q.2.HasItem) ∧ ¬ p.2.HasItem ∧
        p.2.toItem? = .error f ∧
        (p.2.NamesHaveKeys → f.kind = .type ∨ Value.IsUnshown f ∧ ¬ p.2.CanBeShown) := by
    intro f hf
    obtain ⟨pre, p, post, hfirst⟩ := hends.error hf
    refine ⟨pre, p, post, hfirst.split, fun q hq => ?_, fun hitem => ?_, hfirst.fails,
      fun hnames => Value.failsByTypeIf_toItem? hnames f hfirst.fails⟩
    · exact Value.exists_toItem?_eq_ok_iff.mp (hfirst.before q hq)
    · obtain ⟨_, hi⟩ := Value.exists_toItem?_eq_ok_iff.mpr hitem
      exact ne_ok_of_eq_error hfirst.fails hi
  -- success and failure of the pass are those of its values, and its result holds the writes
  refine ⟨⟨fun ⟨c, hc⟩ => (hends.ok hc).2, fun hitems => ?_⟩, herror, fun c hc => ?_⟩
  · cases hrun : ofPairs pairs with
    | ok c => exact ⟨c, rfl⟩
    | error f =>
      obtain ⟨pre, p, post, hsplit, -, hno, -⟩ := herror f hrun
      exact absurd (hitems p (by simp [hsplit])) hno
  · -- the context is proper and holds the writes of all pairs, which is what is to be said of it
    obtain ⟨hwrites, -⟩ := hends.ok hc
    obtain ⟨places, hkeys, hsorted, hopens⟩ := hwrites.placed
    refine ⟨fun n hn => ⟨_, hwrites.item n, get?_of_isName hn c⟩, places, ?_, hsorted, hopens, ?_,
      fun n hn => ?_⟩
    · rw [hkeys]
      rfl
    · rw [hkeys]
      exact (isProper_of_ofPairs_eq_ok hc).distinct
    · rw [hkeys]
      exact exists_get?_eq_some_iff hn c

/-- A name that is taken away and comes again goes behind the others, and a number keeps its place
under the truth value that is equal to it. -/
theorem ofValue_holds_reinserted_name :
    ∃ (a b : Value) (pairs : List (Value × Value)) (c : Context),
      a = .text "a".toText ∧ b = .text "b".toText ∧
        pairs = [(a, .text "x".toText), (.int 1, .text "p".toText),
          (b, .list [.text "q".toText]), (a, .null), (.bool true, .text "r".toText),
          (a, .bool false)] ∧
        Value.Gives (.list (pairs.map fun p => .tuple [p.1, p.2])) pairs ∧
        (∀ p ∈ pairs, p.1.IsName) ∧
        ofValue (.list (pairs.map fun p => .tuple [p.1, p.2])) = .ok c ∧
        c.toValue.members = .ok [.int 1, b, a] ∧
        c.get? (.int 1) = .ok (some (.atom "r".toText)) ∧
        c.get? a = .ok (some (.atom "false".toText)) := by
  let a : Value := .text "a".toText
  let b : Value := .text "b".toText
  let pairs : List (Value × Value) :=
    [(a, .text "x".toText), (.int 1, .text "p".toText), (b, .list [.text "q".toText]), (a, .null),
      (.bool true, .text "r".toText), (a, .bool false)]
  have hsource : Value.Gives (.list (pairs.map fun p => .tuple [p.1, p.2])) pairs :=
    .members rfl rfl rfl
  -- texts, integers and truth values all are names
  have hnames : ∀ p ∈ pairs, p.1.IsName := by
    have ha : a.IsName := ⟨_, rfl, by decide⟩
    have hb : b.IsName := ⟨_, rfl, by decide⟩
    have hone : (Value.int 1).IsName := ⟨_, rfl, by decide⟩
    have htrue : (Value.bool true).IsName := ⟨_, rfl, by decide⟩
    simp [pairs, ha, hb, hone, htrue]
  have hitems : ∀ p ∈ pairs, p.2.HasItem := by
    have htext : ∀ t, (Value.text t).HasItem := fun t => .scalar trivial
    have htruth : (Value.bool false).HasItem := .scalar trivial
    have hlist : (Value.list [.text "q".toText]).HasItem :=
      .list (List.forall_mem_singleton.mpr trivial)
    have hnull : Value.HasItem .null := .null
    simp [pairs, htext, htruth, hlist, hnull]
  obtain ⟨c, hc⟩ := (ofValue_holds_last_writes hsource hnames).1.mpr hitems
  -- `a` comes last, and `1` has the place of the number and the value of `True`
  have hrun : ofValue (.list (pairs.map fun p => .tuple [p.1, p.2])) =
      .ok ⟨[(.int 1, .atom "r".toText), (b, .list ["q".toText]), (a, .atom "false".toText)]⟩ := rfl
  rw [hrun] at hc
  cases hc
  exact ⟨a, b, pairs, _, rfl, rfl, rfl, hsource, hnames, hrun, rfl, rfl, rfl⟩

/-- A list in a list has no item.  It is refused with the fault of showing it, which is no type
error, if an integer in it has too many digits. -/
theorem ofValue_nested_oversized :
    ∃ (v : Value) (pairs : List (Value × Value)),
      v = .list [.list [.int (Nat.pow 10 Text.digitLimit)]] ∧ pairs = [(.text "a".toText, v)] ∧
        Value.Gives (.list [.tuple [.text "a".toText, v]]) pairs ∧ (∀ p ∈ pairs, p.1.IsName) ∧
        ¬ v.HasItem ∧
        ∃ f, ofValue (.list [.tuple [.text "a".toText, v]]) = .error f ∧ f.kind = .value := by
  -- only that the integer is large matters, and not its digits
  obtain ⟨n, hpow⟩ : ∃ n, n = Nat.pow 10 Text.digitLimit := ⟨_, rfl⟩
  have hlong : Nat.pow 10 Text.digitLimit ≤ n := Nat.le_of_eq hpow.symm
  let v : Value := .list [.list [.int n]]
  have hname : (Value.text "a".toText).IsName := ⟨_, rfl, by decide⟩
  have hitem : v.toItem? = .error (.misuse .oversized) :=
    Value.toItem?_nested (Value.inspect_oversized hlong)
  -- what has an item is converted, and this is not
  have hno : ¬ v.HasItem := by
    intro h
    obtain ⟨_, hi⟩ := Value.exists_toItem?_eq_ok_iff.mpr h
    exact ne_ok_of_eq_error hitem hi
  have hsource : Value.Gives (.list [.tuple [.text "a".toText, v]]) [(.text "a".toText, v)] :=
    .members rfl rfl rfl
  have hrun : ofValue (.list [.tuple [.text "a".toText, v]]) = .error (.misuse .oversized) := by
    rw [ofValue_of_gives hsource]
    exact bind_eq_error.mpr (.inl (bind_eq_error.mpr (.inl hitem)))
  rw [← hpow]
  exact ⟨v, _, rfl, rfl, hsource, List.forall_mem_singleton.mpr hname, hno, _, hrun, rfl⟩

end Context

end UriTemplate
