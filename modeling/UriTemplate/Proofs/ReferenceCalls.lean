import UriTemplate.Proofs.BadConfigurations
import Mathlib.Data.List.Nodup
import Mathlib.Data.List.Perm.Subperm

/-!
# Calls for references

The pattern of a name is made by a call that makes one more for each reference in the text of the
name.  A call knows the path of the names under way, the patterns that are finished by then, and
the name that it is made for (`Call`).  Loading makes a call for every entry, and the others are
made by calls (`IsCalled`).

On the path of a call no name stands twice, none is finished, and each refers to the next one
(`Call.IsProper`).  Between the call for a name and a call that is made on its behalf others finish
patterns, but never that of a name under way (`Keeps`); this carries what is known of the caller
over to the call.  So calls are nested at most one deeper than there are names, and a circle that
is refused is the path of a call that comes back to one of its names (`ofValue_calls`).
-/

namespace UriTemplate

namespace Config

variable {config : Config} {path : List Value} {done : Patterns}

/-! ## Failing references -/

/-- Pieces fail as one of their references does, behind those in front of it. -/
theorem exists_of_substitute_eq_error {segments : List Segment} {f : Fault}
    (h : config.substitute path done segments = .error f) :
    ∃ front m back p done', segments = front ++ .reference m :: back ∧
      config.substitute path done front = .ok (p, done') ∧
      config.referenced path done' m = .error f := by
  -- piece by piece: either this one fails, or it is replaced and one behind it fails
  induction segments generalizing done with
  | nil =>
    rw [substitute] at h
    cases h
  | cons s rest ih =>
    cases s with
    | plain c =>
      rw [substitute] at h
      rcases bind_eq_error.mp h with hrest | ⟨r, -, hpure⟩
      · obtain ⟨front, m, back, p, done', rfl, hfront, hm⟩ := ih hrest
        refine ⟨.plain c :: front, m, back, c :: p, done', rfl, ?_, hm⟩
        rw [substitute, hfront]
        rfl
      · cases hpure
    | reference name =>
      rw [substitute] at h
      rcases bind_eq_error.mp h with hname | ⟨⟨inner, done₁⟩, hname, hrest⟩
      · refine ⟨[], name, rest, [], done, rfl, ?_, hname⟩
        rw [substitute]
      · rcases bind_eq_error.mp hrest with hrest | ⟨r, -, hpure⟩
        · obtain ⟨front, m, back, p, done', rfl, hfront, hm⟩ := ih hrest
          refine ⟨.reference name :: front, m, back, inner ++ p, done', rfl, ?_, hm⟩
          rw [substitute, hname]
          show config.substitute path done₁ front >>= _ = _
          rw [hfront]
          rfl
        · cases hpure

/-! ## Calls -/

/-- A call for the pattern of a name: the path of the names under way, the patterns that are
finished by then, and the name. -/
structure Call where
  path : List Value
  done : Patterns
  name : Text

namespace Call

variable {c c' : Call} {names : List Text}

/-- What comes of a call. -/
def run (config : Config) (c : Call) : Except Fault (Text × Patterns) :=
  config.referenced c.path c.done c.name

/-- A call for a name that is neither finished nor on the path makes a call for each reference in
the text of the name, with what those in front of it have finished. -/
inductive Makes (config : Config) (c : Call) : Call → Prop
  | reference (t m p : Text) (done : Patterns) (front back : List Segment)
      (hdone : c.done.get? (.text c.name) = none)
      (hpath : ¬ c.path.contains (.text c.name) = true)
      (hget : config.get? (.text c.name) = some (.text t))
      (hsplit : t.segments = front ++ .reference m :: back)
      (hfront : config.substitute (c.path ++ [.text c.name]) c.done front = .ok (p, done)) :
      Makes config c ⟨c.path ++ [.text c.name], done, m⟩

/-- The names on the path are different from each other and not finished, a text is configured for
each of them, and each refers to the next one, the last one to the name of the call. -/
structure IsProper (config : Config) (c : Call) (names : List Text) : Prop where
  path_eq : c.path = names.map .text
  nodup : names.Nodup
  unfinished : ∀ n ∈ names, c.done.get? (.text n) = none
  configured : ∀ n ∈ names, ∃ t, (.text n, .text t) ∈ config
  chain : (names ++ [c.name]).IsChain config.Refers

/-- The path of a call holds its names and nothing else. -/
theorem IsProper.contains_iff (h : c.IsProper config names) (n : Text) :
    c.path.contains (.text n) = true ↔ n ∈ names := by
  rw [h.path_eq]
  exact contains_map_text_iff

/-- A call that is made has the path of the one that makes it, with its name. -/
theorem Makes.isProper (hmakes : c.Makes config c') (h : c.IsProper config names) :
    c'.IsProper config (names ++ [c.name]) := by
  cases hmakes with
  | reference t m p done front back hdone hpath hget hsplit hfront =>
    have hmem : .reference m ∈ t.segments := by
      rw [hsplit]
      exact List.mem_append_right _ List.mem_cons_self
    have hrefers : config.Refers c.name m := (refers_iff hget t.divides_segments).mpr hmem
    have hkeeps : Keeps (c.path ++ [.text c.name]) c.done done :=
      ((resolution_keeps config).2.2 _ _ front).ok hfront
    have hpath' : c.path ++ [.text c.name] = (names ++ [c.name]).map .text := by
      rw [h.path_eq, List.map_append, List.map_singleton]
    -- the name of the caller is new on the path, since the call would have refused it
    have hfresh : c.name ∉ names := fun hn => hpath ((h.contains_iff c.name).mpr hn)
    constructor
    · exact hpath'
    · exact List.nodup_append.mpr ⟨h.nodup, List.pairwise_singleton _ _,
        fun a ha b hb heq => hfresh (List.mem_singleton.mp hb ▸ heq ▸ ha)⟩
    · -- the references in front have finished patterns, but none of those on the path
      intro n hn
      rw [hpath'] at hkeeps
      show done.get? (.text n) = none
      rw [hkeeps _ (.inr (contains_map_text_iff.mpr hn))]
      rcases List.mem_append.mp hn with hn | hn
      · exact h.unfinished n hn
      · rw [List.mem_singleton.mp hn, hdone]
    · intro n hn
      rcases List.mem_append.mp hn with hn | hn
      · exact h.configured n hn
      · rw [List.mem_singleton.mp hn]
        exact ⟨t, mem_of_get? hget⟩
    · show (names ++ [c.name] ++ [m]).IsChain config.Refers
      rw [List.append_assoc]
      exact List.isChain_append_cons_cons.mpr ⟨h.chain, hrefers, List.isChain_singleton m⟩

/-- There are no more names on a path than configured ones. -/
theorem IsProper.length_le (h : c.IsProper config names) : names.length ≤ config.length := by
  have hsub : names.map Value.text ⊆ config.keys := by
    intro k hk
    obtain ⟨n, hn, rfl⟩ := List.mem_map.mp hk
    obtain ⟨t, ht⟩ := h.configured n hn
    exact List.mem_map_of_mem ht
  -- different names that are all configured are no more than the entries
  have hle := (List.subperm_of_subset (Entries.nodup_map_text h.nodup) hsub).length_le
  rwa [List.length_map, Entries.keys, List.length_map] at hle

/-- A call has fewer names before it than the one that makes it. -/
theorem Makes.pending_lt (h : c.Makes config c') :
    config.pending c'.path < config.pending c.path := by
  cases h with
  | reference t m p done front back hdone hpath hget =>
    exact pending_append_lt hget (Bool.eq_false_iff.mpr hpath)

/-- So no call makes calls without end. -/
theorem wellFounded_makes (config : Config) :
    WellFounded fun c' c : Call => c.Makes config c' :=
  Subrelation.wf Makes.pending_lt (measure fun c : Call => config.pending c.path).wf

/-- A circle is refused by a call for a name on its path, or by one that the call makes. -/
theorem run_eq_invalid {e : ValidationError} (h : c.run config = .error (.invalid e)) :
    c.path.contains (.text c.name) = true ∧ circle c.path (.text c.name) = .invalid e ∨
      ∃ c', c.Makes config c' ∧ c'.run config = .error (.invalid e) := by
  unfold run at h
  -- a finished name, one on the path and an unknown one end at once; the others call for
  -- references
  cases hdone : c.done.get? (.text c.name) with
  | some p =>
    rw [referenced_of_finished hdone] at h
    cases h
  | none =>
    by_cases hpath : c.path.contains (.text c.name) = true
    · rw [referenced_of_contains hdone hpath] at h
      exact .inl ⟨hpath, Except.error.inj h⟩
    · right
      cases hget : config.get? (.text c.name) with
      | none =>
        rw [referenced_of_unknown hdone hpath hget] at h
        cases h
      | some v =>
        rw [referenced_of_configured hdone hpath hget] at h
        by_cases hv : ∃ t, v = .text t
        · -- the first reference that fails is the call that is asked for
          obtain ⟨t, rfl⟩ := hv
          rw [resolve] at h
          rcases bind_eq_error.mp h with hsegments | ⟨r, -, hpure⟩
          · obtain ⟨front, m, back, p, done, hsplit, hfront, hm⟩ :=
              exists_of_substitute_eq_error hsegments
            exact ⟨_, .reference t m p done front back hdone hpath hget hsplit hfront, hm⟩
          · cases hpure
        · -- what is no text is refused by another error, or cannot be shown
          rw [resolve_text_of_not_text fun t ht => hv ⟨t, ht⟩] at h
          rcases bind_eq_error.mp h with hshown | ⟨shown, -, hthrow⟩
          · rcases Value.inspect_shows v _ hshown with hf | hf
            · cases hf
            · cases hf
          · cases hthrow

end Call

/-- The calls of a loading, with their depth: the one for an entry is made behind the entries in
front of it, and the others are made by calls. -/
inductive IsCalled (config : Config) : Nat → Call → Prop
  | entry (front back : Config) (n : Text) (v : Value) (r : Resolver)
      (hsplit : config = front ++ (.text n, v) :: back)
      (hfront : front.foldlM Resolver.add ⟨config, [], []⟩ = .ok r) :
      IsCalled config 1 ⟨[], r.patterns, n⟩
  | reference (depth : Nat) (c c' : Call) (h : IsCalled config depth c)
      (hmakes : c.Makes config c') : IsCalled config (depth + 1) c'

namespace IsCalled

variable {depth : Nat} {c : Call} {names : List Text}

/-- The path of a call is proper, and it has all the names of the calls around it. -/
theorem exists_isProper (h : config.IsCalled depth c) :
    ∃ names, c.IsProper config names ∧ names.length + 1 = depth := by
  -- an entry is called for with an empty path, and every call prolongs the path by one name
  induction h with
  | entry front back n v r hsplit hfront =>
    exact ⟨[], ⟨rfl, List.nodup_nil, List.forall_mem_nil _, List.forall_mem_nil _,
      List.isChain_singleton n⟩, rfl⟩
  | reference depth c c' h hmakes ih =>
    obtain ⟨names, hproper, rfl⟩ := ih
    exact ⟨names ++ [c.name], hmakes.isProper hproper, by rw [List.length_append]; rfl⟩

/-- A circle that a call refuses is the path of a call for a name on it. -/
theorem exists_circle (h : config.IsCalled depth c)
    (hrun : c.run config = .error (.invalid (.circularReference names))) :
    ∃ depth' c' earlier, config.IsCalled depth' c' ∧ c'.IsProper config earlier ∧
      c'.run config = .error (.invalid (.circularReference names)) ∧
      names = earlier ++ [c'.name] ∧ c'.name ∈ earlier := by
  -- the call that refuses the circle is found by going from call to call
  induction c using (Call.wellFounded_makes config).induction generalizing depth with
  | _ c ih =>
    rcases Call.run_eq_invalid hrun with ⟨hpath, hcircle⟩ | ⟨c', hmakes, hrun'⟩
    · obtain ⟨earlier, hproper, -⟩ := h.exists_isProper
      have hmem := (hproper.contains_iff c.name).mp hpath
      refine ⟨depth, c, earlier, h, hproper, hrun, ?_, hmem⟩
      rw [hproper.path_eq, circle_map_text] at hcircle
      cases hcircle
      rfl
    · exact ih c' hmakes (.reference depth c c' h hmakes) hrun'

end IsCalled

end Config

/-! ## Loading -/

namespace Resolver

variable {config : Config} {r r' : Resolver}

/-- A resolver loads from one configuration. -/
theorem config_of_foldlM {front : Config} (h : front.foldlM add r = .ok r') :
    r'.config = r.config := by
  induction front generalizing r with
  | nil =>
    cases h
    rfl
  | cons e rest ih =>
    rw [List.foldlM_cons] at h
    obtain ⟨r₁, hadd, hrest⟩ := bind_eq_ok.mp h
    rw [ih hrest]
    -- an entry that is added changes the patterns and the templates alone
    rw [add_eq] at hadd
    obtain ⟨x, -, hx⟩ := bind_eq_ok.mp hadd
    obtain ⟨T, -, hT⟩ := bind_eq_ok.mp hx
    cases hT
    rfl

/-- The pattern of an entry is made by a call with no name under way. -/
theorem add_eq_run {n : Text} {v : Value} (hget : r.config.get? (.text n) = some v) :
    r.add (.text n, v) = Config.Call.run r.config ⟨[], r.patterns, n⟩ >>= fun x =>
      parsePattern (.text n) x.1 >>= fun T => .ok ⟨r.config, x.2, r.templates.put (.text n) T⟩ := by
  rw [add_eq]
  congr 1
  unfold Config.Call.run
  cases hdone : r.patterns.get? (.text n) with
  | some p => rw [Config.referenced_of_finished hdone]
  | none => rw [Config.referenced_of_configured hdone (by simp) hget]

/-- What is put together for a name is no circle. -/
theorem parsePattern_ne_invalid {n p : Text} {e : ValidationError} :
    parsePattern (.text n) p ≠ .error (.invalid e) := by
  unfold parsePattern
  split
  · exact nofun
  · exact nofun
  · exact nofun

/-- A circle that loading refuses is refused by the call for an entry. -/
theorem exists_isCalled_of_load (hnames : config.HasTextNames) {e : ValidationError}
    (h : load config = .error (.invalid e)) :
    ∃ c, config.IsCalled 1 c ∧ c.run config = .error (.invalid e) := by
  obtain ⟨front, ⟨k, v⟩, back, r, hsplit, hfront, hadd⟩ := exists_of_foldlM_eq_error h
  have hmem : (k, v) ∈ config := by
    rw [hsplit]
    exact List.mem_append_right _ List.mem_cons_self
  -- the entry that fails has a text as its name, under which nothing else stands
  obtain ⟨n, rfl⟩ := hnames.exists_text k (List.mem_map_of_mem hmem)
  have hconfig : r.config = config := config_of_foldlM hfront
  have hget : r.config.get? (.text n) = some v := by
    rw [hconfig]
    exact (Entries.get?_eq_some_iff hnames n v).mpr hmem
  rw [add_eq_run hget, hconfig] at hadd
  rcases bind_eq_error.mp hadd with hrun | ⟨x, -, hx⟩
  · exact ⟨_, .entry front back n v r hsplit hfront, hrun⟩
  · rcases bind_eq_error.mp hx with hparse | ⟨T, -, hT⟩
    · exact absurd hparse parsePattern_ne_invalid
    · cases hT

/-- On the path of every call that loading makes no name stands twice, none is finished, each has a
text, and each refers to the next one and the last to the name of the call.  So calls are nested at
most one deeper than there are templates, and they come to an end.  A circle that is refused is
such a path and a name behind it that stands on the path just once. -/
theorem ofValue_calls {entries : List (Value × Value)}
    (hget : Entries.get? (.text templatesKey) entries = some (.map config))
    (hnames : config.HasTextNames) :
    (∀ depth c, config.IsCalled depth c →
      depth ≤ config.length + 1 ∧ ∃ names, c.IsProper config names) ∧
    WellFounded (fun c' c : Config.Call => c.Makes config c') ∧
    ∀ names, ofValue (.map entries) = .error (.invalid (.circularReference names)) →
      ∃ depth c earlier, config.IsCalled depth c ∧ c.IsProper config earlier ∧
        c.run config = .error (.invalid (.circularReference names)) ∧
        names = earlier ++ [c.name] ∧ earlier.count c.name = 1 := by
  refine ⟨fun depth c h => ?_, Config.Call.wellFounded_makes config, fun names hvalue => ?_⟩
  · obtain ⟨names, hproper, rfl⟩ := h.exists_isProper
    exact ⟨Nat.succ_le_succ hproper.length_le, names, hproper⟩
  · rw [ofValue_eq_load hget] at hvalue
    -- the circle comes from the call for an entry, and from there down to the call that refuses it
    obtain ⟨c, hcalled, hrun⟩ := exists_isCalled_of_load hnames hvalue
    obtain ⟨depth, c', earlier, hcalled', hproper, hrun', hshown, hmem⟩ :=
      hcalled.exists_circle hrun
    exact ⟨depth, c', earlier, hcalled', hproper, hrun', hshown,
      List.count_eq_one_of_mem hproper.nodup hmem⟩

/-- A text that leads to a circle without being on it. -/
def hooked : Config :=
  [(.text "a".toText, .text "<b>".toText), (.text "b".toText, .text "<c>".toText),
    (.text "c".toText, .text "<b>".toText)]

/-- The three names of this example are different texts. -/
theorem hasTextNames_hooked : hooked.HasTextNames := by
  have hkeys : hooked.keys = (["a", "b", "c"].map String.toText).map .text := rfl
  exact Entries.hasTextNames_of_keys_eq hkeys (by decide)

/-- The circle is shown with the name that leads to it, and the name that closes it stands once
in front. -/
theorem ofValue_calls_hooked :
    ∃ names, names = ["a", "b", "c", "b"].map String.toText ∧
      ofValue (.map [(.text templatesKey, .map hooked)]) =
        .error (.invalid (.circularReference names)) ∧
      ∃ depth c earlier, hooked.IsCalled depth c ∧ c.IsProper hooked earlier ∧
        c.run hooked = .error (.invalid (.circularReference names)) ∧
        names = earlier ++ [c.name] ∧ earlier.count c.name = 1 := by
  have hb : "<b>".toText.segments = [.reference "b".toText] := by decide +kernel
  have hc : "<c>".toText.segments = [.reference "c".toText] := by decide +kernel
  -- the references lead from `a` to `b`, from there to `c`, and back to `b`
  have hrun : Config.Call.run hooked ⟨[], [], "a".toText⟩ =
      .error (.invalid (.circularReference (["a", "b", "c", "b"].map String.toText))) :=
    Config.referenced_of_referenced rfl (by simp) rfl hb <|
      Config.referenced_of_referenced rfl (by decide) rfl hc <|
        Config.referenced_of_referenced rfl (by decide) rfl hb <|
          Config.referenced_of_contains rfl (by decide)
  have hload : ofValue (.map [(.text templatesKey, .map hooked)]) =
      .error (.invalid (.circularReference (["a", "b", "c", "b"].map String.toText))) := by
    rw [ofValue_eq_load rfl, load]
    conv_lhs => rw [hooked, List.foldlM_cons, ← hooked]
    rw [add_eq_run rfl, hrun]
    rfl
  exact ⟨_, rfl, hload, (ofValue_calls rfl hasTextNames_hooked).2.2 _ hload⟩

end Resolver

end UriTemplate
