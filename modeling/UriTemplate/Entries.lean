/-! # Ordered entries

A mapping that remembers its order is kept as a list of entries.  Writing under a key that
is already there replaces the value and keeps the entry in its place; a new key goes to the
end.  Keys are compared by `==`, so that the key type says what counts as the same key.

* `get?_put`: reading after a write
* `get?_remove`: reading after a removal
* `put_of_get?_eq_none`, `keys_put_of_get?_eq_some`, `keys_remove`: the order of the keys
* `nodup_keys_put`: keys that are pairwise different stay so
* `ofPairs_eq_self`: nothing is lost or moved where the keys are pairwise different -/

namespace UriTemplate

/-- The entries of a mapping, in order. -/
abbrev Entries (κ β : Type) := List (κ × β)

namespace Entries

variable {κ β : Type} [BEq κ]

/-- The value under a key. -/
def get? (k : κ) : Entries κ β → Option β
  | [] => none
  | (k', v) :: rest => if k' == k then some v else get? k rest

/-- Whether there is an entry for a key. -/
def contains (k : κ) (entries : Entries κ β) : Bool := (entries.get? k).isSome

/-- Writes a value under a key. -/
def put (k : κ) (v : β) : Entries κ β → Entries κ β
  | [] => [(k, v)]
  | (k', v') :: rest => if k' == k then (k', v) :: rest else (k', v') :: put k v rest

/-- Removes the entry for a key. -/
def remove (k : κ) (entries : Entries κ β) : Entries κ β :=
  entries.filter fun e => !(e.1 == k)

/-- Writes pairs one after the other. -/
def ofPairs (pairs : List (κ × β)) : Entries κ β :=
  pairs.foldl (fun entries p => entries.put p.1 p.2) []

/-- The keys, in order. -/
def keys (entries : Entries κ β) : List κ := entries.map (·.1)

/-- Keys equal to one key are equal to the same keys. -/
theorem beq_congr_left [PartialEquivBEq κ] {a b : κ} (h : (a == b) = true) (c : κ) :
    (a == c) = (b == c) := by
  rw [Bool.eq_iff_iff]
  exact ⟨fun hac => BEq.trans (BEq.symm h) hac, fun hbc => BEq.trans h hbc⟩

/-- A write is seen under its key, and under no other. -/
theorem get?_put [PartialEquivBEq κ] (entries : Entries κ β) (k k' : κ) (v : β) :
    (entries.put k v).get? k' = if k == k' then some v else entries.get? k' := by
  induction entries with
  | nil => rfl
  | cons e rest ih =>
    obtain ⟨x, w⟩ := e
    cases hx : x == k with
    | true =>
      -- this entry is written, and its key is equal to `k'` just if `k` is
      simp only [put, hx, get?, if_true, beq_congr_left hx k']
      split <;> rfl
    | false =>
      simp only [put, hx, get?, ih, Bool.false_eq_true, if_false]
      cases hk : k == k' with
      | false => rfl
      | true =>
        -- the key that is asked for is the written one, so it is not that of this entry
        have : (x == k') = false := by
          cases hx' : x == k' with
          | false => rfl
          | true => rw [BEq.trans hx' (BEq.symm hk)] at hx; cases hx
        simp [this]

/-- A removal hides the key, and no other. -/
theorem get?_remove [PartialEquivBEq κ] (entries : Entries κ β) (k k' : κ) :
    (entries.remove k).get? k' = if k == k' then none else entries.get? k' := by
  induction entries with
  | nil => simp [remove, get?]
  | cons e rest ih =>
    obtain ⟨x, w⟩ := e
    simp only [remove] at ih ⊢
    cases hx : x == k with
    | true =>
      -- this entry goes, and it would have answered for `k` alone
      simp only [List.filter_cons, hx, Bool.not_true, Bool.false_eq_true, if_false, ih, get?,
        beq_congr_left hx k']
      split <;> rfl
    | false =>
      simp only [List.filter_cons, hx, Bool.not_false, if_true, get?, ih]
      cases hk : k == k' with
      | false => rfl
      | true =>
        have : (x == k') = false := by
          cases hx' : x == k' with
          | false => rfl
          | true => rw [BEq.trans hx' (BEq.symm hk)] at hx; cases hx
        simp [this]

/-- What is found under a key stands in an entry. -/
theorem exists_mem_of_get? {entries : Entries κ β} {k : κ} {v : β}
    (h : entries.get? k = some v) : ∃ k', (k', v) ∈ entries := by
  induction entries with
  | nil => cases h
  | cons e rest ih =>
    obtain ⟨x, w⟩ := e
    simp only [get?] at h
    split at h
    · cases h
      exact ⟨x, List.mem_cons_self⟩
    · obtain ⟨k', hmem⟩ := ih h
      exact ⟨k', List.mem_cons_of_mem _ hmem⟩

/-- Nothing is found under a key that is not there. -/
theorem get?_eq_none_iff_forall {entries : Entries κ β} {k : κ} :
    entries.get? k = none ↔ ∀ k' ∈ entries.keys, (k' == k) = false := by
  induction entries with
  | nil => simp [get?, keys]
  | cons e rest ih =>
    obtain ⟨x, w⟩ := e
    simp only [keys] at ih
    cases hx : x == k with
    | true => simp [get?, keys, hx]
    | false => simp [get?, keys, hx, ih]

/-- An entry is found under its key, if no other key is equal to it. -/
theorem get?_of_mem {entries : Entries κ β} {e : κ × β}
    (hdistinct : entries.keys.Pairwise fun a b => (a == b) = false) (he : e ∈ entries)
    (hself : (e.1 == e.1) = true) : entries.get? e.1 = some e.2 := by
  induction entries with
  | nil => cases he
  | cons e' rest ih =>
    obtain ⟨hother, hrest⟩ := List.pairwise_cons.mp hdistinct
    rcases List.mem_cons.mp he with rfl | he
    · rw [get?, if_pos hself]
    · have hne : (e'.1 == e.1) = false := hother e.1 (List.mem_map_of_mem he)
      rw [get?, hne, if_neg Bool.false_ne_true, ih hrest he]

/-- Values can be mapped before a look-up or behind it. -/
theorem get?_map {γ : Type} (f : β → γ) (entries : Entries κ β) (k : κ) :
    get? k (entries.map fun e => (e.1, f e.2)) = (entries.get? k).map f := by
  induction entries with
  | nil => rfl
  | cons e rest ih =>
    rw [List.map_cons, get?, get?, ih]
    split <;> rfl

/-- A key that is not there goes to the end. -/
theorem put_of_get?_eq_none {entries : Entries κ β} {k : κ} (h : entries.get? k = none) (v : β) :
    entries.put k v = entries ++ [(k, v)] := by
  induction entries with
  | nil => rfl
  | cons e rest ih =>
    obtain ⟨x, w⟩ := e
    simp only [get?] at h
    split at h
    · cases h
    · next hx => rw [put, if_neg hx, ih h, List.cons_append]

/-- A key that is not found goes behind the others. -/
theorem keys_put_of_get?_eq_none {entries : Entries κ β} {k : κ} (h : entries.get? k = none)
    (v : β) : (entries.put k v).keys = entries.keys ++ [k] := by
  rw [put_of_get?_eq_none h, keys, keys, List.map_append, List.map_singleton]

/-- A key that is there keeps its place, and so do the others. -/
theorem keys_put_of_get?_eq_some {entries : Entries κ β} {k : κ} {w : β}
    (h : entries.get? k = some w) (v : β) : (entries.put k v).keys = entries.keys := by
  induction entries with
  | nil => cases h
  | cons e rest ih =>
    obtain ⟨x, w'⟩ := e
    simp only [get?] at h
    split at h
    · next hx => rw [put, if_pos hx, keys, keys, List.map_cons, List.map_cons]
    · next hx =>
      have hrest := ih h
      simp only [keys] at hrest ⊢
      rw [put, if_neg hx, List.map_cons, List.map_cons, hrest]

/-- A removal leaves the other keys as they are. -/
theorem keys_remove (entries : Entries κ β) (k : κ) :
    (entries.remove k).keys = entries.keys.filter fun k' => !(k' == k) := by
  rw [keys, keys, remove, List.filter_map]
  rfl

/-- A write adds at most its own key. -/
theorem mem_keys_put {entries : Entries κ β} {k x : κ} {v : β}
    (h : x ∈ (entries.put k v).keys) : x = k ∨ x ∈ entries.keys := by
  induction entries with
  | nil => simpa [put, keys] using h
  | cons e rest ih =>
    obtain ⟨y, w⟩ := e
    simp only [put] at h
    split at h
    · exact .inr h
    · simp only [keys, List.map_cons, List.mem_cons] at h ih ⊢
      rcases h with h | h
      · exact .inr (.inl h)
      · rcases ih h with h | h
        · exact .inl h
        · exact .inr (.inr h)

/-- Keys that are pairwise different stay so. -/
theorem nodup_keys_put [LawfulBEq κ] {entries : Entries κ β} (h : entries.keys.Nodup) (k : κ)
    (v : β) : (entries.put k v).keys.Nodup := by
  induction entries with
  | nil => simp [put, keys]
  | cons e rest ih =>
    obtain ⟨y, w⟩ := e
    simp only [put]
    split
    · exact h
    · next hy =>
      simp only [keys, List.map_cons, List.nodup_cons] at h ih ⊢
      refine ⟨fun hmem => ?_, ih h.2⟩
      -- the key of this entry is neither the written one nor among the others
      rcases mem_keys_put hmem with rfl | hmem
      · simp at hy
      · exact h.1 hmem

/-- The keys of entries made from pairs are pairwise different. -/
theorem nodup_keys_ofPairs [LawfulBEq κ] (pairs : List (κ × β)) :
    (ofPairs pairs).keys.Nodup := by
  -- every write keeps the keys different, whatever entries it begins with
  suffices h : ∀ entries : Entries κ β, entries.keys.Nodup →
      (pairs.foldl (fun entries p => entries.put p.1 p.2) entries).keys.Nodup from
    h [] (by simp [keys])
  induction pairs with
  | nil => exact fun _ h => h
  | cons p pairs ih => exact fun entries h => ih _ (nodup_keys_put h p.1 p.2)

/-- Pairs under pairwise different keys are the entries made from them. -/
theorem ofPairs_eq_self {pairs : List (κ × β)}
    (h : pairs.Pairwise fun p q => (p.1 == q.1) = false) : ofPairs pairs = pairs := by
  -- the pairs in front are there already, and the next one goes behind them
  suffices hrest : ∀ back front : List (κ × β), pairs = front ++ back →
      back.foldl (fun entries p => Entries.put p.1 p.2 entries) front = pairs from
    hrest pairs [] rfl
  intro back
  induction back with
  | nil =>
    intro front hsplit
    rw [hsplit, List.append_nil, List.foldl_nil]
  | cons p back ih =>
    intro front hsplit
    have hnew : Entries.get? p.1 front = none := by
      refine get?_eq_none_iff_forall.mpr (List.forall_mem_map.mpr fun q hq => ?_)
      rw [hsplit, List.pairwise_append] at h
      exact h.2.2 q hq p List.mem_cons_self
    rw [List.foldl_cons, put_of_get?_eq_none hnew]
    exact ih (front ++ [p]) (by rw [hsplit, List.append_assoc, List.singleton_append])

end Entries

end UriTemplate
