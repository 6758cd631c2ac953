import UriTemplate.Proofs.Runs
import UriTemplate.Proofs.Substitution
import Mathlib.Data.List.Chain

/-!
# The finished patterns

Patterns are made by a recursion that keeps what is finished and carries the path of the names
under way.  A step that begins with finished patterns that are right (`IsSound`) and with a path
on which every name refers to the next one ends in what the name denotes, with finished patterns
that are right again and hold all the former ones; or it ends in an error that names a fault of
the configuration (`Explains`).  The three functions of the recursion are followed together
(`resolution_ends`), and a name that is resolved by itself is a case of it (`resolve_ends`).
-/

namespace UriTemplate

namespace Config

variable {config : Config}

/-- Every finished pattern is the text that its name denotes. -/
def IsSound (config : Config) (done : Patterns) : Prop :=
  ∀ n p, done.get? (.text n) = some p → config.Denotes n p

/-- More patterns are finished, and those that were are as they were. -/
structure Extends (config : Config) (done done' : Patterns) : Prop where
  sound : config.IsSound done'
  keeps : ∀ n p, done.get? (.text n) = some p → done'.get? (.text n) = some p

/-- Nothing is finished, and nothing is lost. -/
theorem Extends.refl {done : Patterns} (h : config.IsSound done) : config.Extends done done :=
  ⟨h, fun _ _ hp => hp⟩

/-- What two parts of the resolution finish one after the other. -/
theorem Extends.trans {done₁ done₂ done₃ : Patterns} (h : config.Extends done₁ done₂)
    (h' : config.Extends done₂ done₃) : config.Extends done₁ done₃ :=
  ⟨h'.sound, fun n p hp => h'.keeps n p (h.keeps n p hp)⟩

/-- The fault of a configuration that an error reports. -/
inductive Explains (config : Config) : Fault → Prop
  /-- A text refers to a name that is not configured. -/
  | unknown (m n : Text) (href : config.Refers m n) (hget : config.get? (.text n) = none) :
      Explains config (.config (.unknownTemplate n.quoted))
  /-- Every name refers to the next one, and the last one is there before. -/
  | circle (names : List Text) (n : Text) (hchain : (names ++ [n]).IsChain config.Refers)
      (hmem : n ∈ names) : Explains config (.invalid (.circularReference (names ++ [n])))
  /-- What is configured for a name is no text. -/
  | notText (n shown : Text) (v : Value) (hget : config.get? (.text n) = some v)
      (hv : ∀ t, v ≠ .text t) (hshown : v.inspect = .ok shown) :
      Explains config (.config (.notText n.quoted shown))
  /-- What is configured for a name is no text, and cannot even be shown. -/
  | notShown (n : Text) (v : Value) (f : Fault) (hget : config.get? (.text n) = some v)
      (hv : ∀ t, v ≠ .text t) (hshown : v.inspect = .error f) : Explains config f

/-- A pattern that is right can be put among the finished ones. -/
theorem extends_put {done : Patterns} {n p : Text} (hdone : config.IsSound done)
    (hp : config.Denotes n p) : config.Extends done (done.put (.text n) p) := by
  constructor
  · intro m q hq
    rw [Entries.get?_put, Value.text_beq_text] at hq
    split at hq
    · next heq =>
      cases hq
      exact eq_of_beq heq ▸ hp
    · exact hdone m q hq
  · intro m q hq
    rw [Entries.get?_put, Value.text_beq_text]
    split
    · next heq =>
      -- the pattern of this name was finished before, and is the same
      have hsame := eq_of_beq heq ▸ hdone m q hq
      rw [hp.unique hsame]
    · exact hq

/-! ## Paths -/

/-- A path of names that ends with `n`, on which every name refers to the next one. -/
structure IsPath (config : Config) (path : List Value) (names : List Text) (n : Text) : Prop where
  path_eq : path = (names ++ [n]).map .text
  chain : (names ++ [n]).IsChain config.Refers

/-- A reference prolongs a path. -/
theorem IsPath.append {path : List Value} {names : List Text} {m n : Text}
    (h : config.IsPath path names m) (href : config.Refers m n) :
    config.IsPath (path ++ [.text n]) (names ++ [m]) n := by
  constructor
  · simp [h.path_eq]
  · rw [List.append_assoc]
    exact List.isChain_append_cons_cons.mpr ⟨h.chain, href, List.isChain_singleton n⟩

/-- A path of names contains the values of these names. -/
theorem contains_map_text_iff {names : List Text} {n : Text} :
    (names.map Value.text).contains (.text n) = true ↔ n ∈ names := by
  simp only [List.contains_eq_any_beq, List.any_map, List.any_eq_true, Function.comp_apply,
    Value.text_beq_text, beq_iff_eq]
  constructor
  · rintro ⟨x, hx, rfl⟩
    exact hx
  · intro hn
    exact ⟨n, hn, rfl⟩

/-- A reference to a name on the path leads back to one of its names. -/
theorem IsPath.mem_of_contains {path : List Value} {names : List Text} {m n : Text}
    (h : config.IsPath path names m) (hpath : path.contains (.text n) = true) :
    n ∈ names ++ [m] := by
  rw [h.path_eq] at hpath
  exact contains_map_text_iff.mp hpath

/-- Values can be put into words just if all of them are texts. -/
theorem mapM_text?_eq_some_iff {vs : List Value} {names : List Text} :
    vs.mapM Value.text? = some names ↔ vs = names.map .text := by
  constructor
  · intro h
    -- value by value, and the first one that is no text ends it
    induction vs generalizing names with
    | nil =>
      cases h
      rfl
    | cons v vs ih =>
      simp only [List.mapM_cons, Option.bind_eq_bind, Option.bind_eq_some_iff] at h
      obtain ⟨n, hn, ns, hns, hnames⟩ := h
      cases hnames
      cases v with
      | text t =>
        cases hn
        rw [List.map_cons, ih hns]
      | _ => cases hn
  · rintro rfl
    induction names with
    | nil => rfl
    | cons n ns ih => simp [Value.text?, ih]

/-- The circle of a path is shown by its names. -/
theorem circle_map_text (names : List Text) (n : Text) :
    circle (names.map .text) (.text n) = .invalid (.circularReference (names ++ [n])) := by
  have hpath : names.map Value.text ++ [.text n] = (names ++ [n]).map .text := by
    rw [List.map_append, List.map_singleton]
  rw [circle, mapM_text?_eq_some_iff.mpr hpath]

/-- A chain of references that comes back to a name is a circle of references. -/
theorem transGen_of_isChain {names : List Text} {n : Text}
    (hchain : (names ++ [n]).IsChain config.Refers) (hmem : n ∈ names) :
    Relation.TransGen config.Refers n n := by
  -- from where the name stands on the chain, the rest of the chain leads back to it
  obtain ⟨before, behind, rfl⟩ := List.append_of_mem hmem
  rw [List.append_assoc, List.cons_append] at hchain
  have hcircle : (n :: (behind ++ [n])).IsChain config.Refers :=
    hchain.suffix (List.suffix_append _ _)
  obtain ⟨c, rest, hrest⟩ := List.exists_cons_of_ne_nil (l := behind ++ [n]) (by simp)
  have hlast : (c :: rest).getLast (List.cons_ne_nil c rest) = n := by
    simp only [← hrest, List.getLast_concat]
  rw [hrest, List.isChain_cons_cons] at hcircle
  exact .head' hcircle.1 (List.relationReflTransGen_of_exists_isChain_cons rest hcircle.2 hlast)

/-! ## The three functions -/

/-- How a name is resolved to which the last name of the path refers. -/
def ReferencedEnds (config : Config) (path : List Value) (done : Patterns) (name : Text) : Prop :=
  ∀ (names : List Text) (m : Text), config.IsPath path names m → config.Refers m name →
    config.IsSound done →
      Ends (fun r => config.Denotes name r.1 ∧ config.Extends done r.2) config.Explains
        (config.referenced path done name)

/-- How a configured template is resolved that prolongs the path. -/
def ResolveEnds (config : Config) (path : List Value) (done : Patterns) (name value : Value) :
    Prop :=
  ∀ (names : List Text) (n : Text), config.IsPath (path ++ [name]) names n → name = .text n →
    config.get? (.text n) = some value → config.IsSound done →
      Ends (fun r => config.Denotes n r.1 ∧ config.Extends done r.2 ∧
        r.2.get? (.text n) = some r.1) config.Explains (config.resolve path done name value)

/-- How pieces are replaced, where the last name of the path refers to all of their references. -/
def SubstituteEnds (config : Config) (path : List Value) (done : Patterns)
    (segments : List Segment) : Prop :=
  ∀ (names : List Text) (n : Text), config.IsPath path names n →
    (∀ m, .reference m ∈ segments → config.Refers n m) → config.IsSound done →
      Ends (fun r => config.Fills segments r.1 ∧ config.Extends done r.2) config.Explains
        (config.substitute path done segments)

/-- A name that is finished is not resolved again. -/
theorem referenced_of_finished {path : List Value} {done : Patterns} {name pattern : Text}
    (hdone : done.get? (.text name) = some pattern) :
    config.referenced path done name = .ok (pattern, done) := by
  rw [referenced, hdone]

/-- A name on the path closes a circle. -/
theorem referenced_of_contains {path : List Value} {done : Patterns} {name : Text}
    (hdone : done.get? (.text name) = none) (hcontains : path.contains (.text name) = true) :
    config.referenced path done name = .error (circle path (.text name)) := by
  rw [referenced, hdone]
  simp only [hcontains, dite_true]

/-- A name that is not configured is refused. -/
theorem referenced_of_unknown {path : List Value} {done : Patterns} {name : Text}
    (hdone : done.get? (.text name) = none) (hcontains : ¬ path.contains (.text name) = true)
    (hget : config.get? (.text name) = none) :
    config.referenced path done name = .error (.config (.unknownTemplate name.quoted)) := by
  rw [referenced, hdone]
  dsimp only
  rw [dif_neg hcontains]
  -- the lookup is bound together with its own outcome, so that no rewriting reaches it
  split
  · rfl
  · next v hv =>
    rw [hget] at hv
    cases hv

/-- Any other name is resolved. -/
theorem referenced_of_configured {path : List Value} {done : Patterns} {name : Text} {v : Value}
    (hdone : done.get? (.text name) = none) (hcontains : ¬ path.contains (.text name) = true)
    (hget : config.get? (.text name) = some v) :
    config.referenced path done name = config.resolve path done (.text name) v := by
  rw [referenced, hdone]
  dsimp only
  rw [dif_neg hcontains]
  -- as above, and the other outcome is the impossible one
  split
  · next hnone =>
    rw [hget] at hnone
    cases hnone
  · next v' hv' =>
    rw [hget] at hv'
    cases hv'
    rfl

/-- What is no text is refused, and shown with its name. -/
theorem resolve_of_not_text {path : List Value} {done : Patterns} {name value : Value}
    (hvalue : ∀ t, value ≠ .text t) :
    config.resolve path done name value = (do
      throw (.config (.notText (← name.inspect) (← value.inspect)))) := by
  rw [resolve.eq_2 _ _ _ _ _ hvalue]

/-- A name that is a text can be shown, so that the value decides. -/
theorem resolve_text_of_not_text {path : List Value} {done : Patterns} {n : Text} {value : Value}
    (hvalue : ∀ t, value ≠ .text t) :
    config.resolve path done (.text n) value = (do
      throw (.config (.notText n.quoted (← value.inspect)))) := by
  rw [resolve_of_not_text hvalue]
  rfl

/-- A finished pattern is the one that the name denotes, since the finished ones are right. -/
theorem referencedEnds_of_finished {path : List Value} {done : Patterns} {name pattern : Text}
    (hdone : done.get? (.text name) = some pattern) : config.ReferencedEnds path done name := by
  intro names m hpath href hsound
  rw [referenced_of_finished hdone]
  exact ⟨hsound name pattern hdone, .refl hsound⟩

/-- A name on the path is refused, and the path that is shown is a chain of references which comes
back to the name. -/
theorem referencedEnds_of_contains {path : List Value} {done : Patterns} {name : Text}
    (hdone : done.get? (.text name) = none) (hcontains : path.contains (.text name) = true) :
    config.ReferencedEnds path done name := by
  intro names m hpath href hsound
  rw [referenced_of_contains hdone hcontains, hpath.path_eq, circle_map_text]
  exact .circle _ name (hpath.append href).chain (hpath.mem_of_contains hcontains)

/-- A name that is not configured is a fault of the text that refers to it. -/
theorem referencedEnds_of_none {path : List Value} {done : Patterns} {name : Text}
    (hdone : done.get? (.text name) = none) (hcontains : ¬ path.contains (.text name) = true)
    (hget : config.get? (.text name) = none) : config.ReferencedEnds path done name := by
  intro names m hpath href hsound
  rw [referenced_of_unknown hdone hcontains hget]
  exact .unknown m name href hget

/-- A configured name that is not finished ends as its own resolution does, with the path prolonged
by the reference that led to it. -/
theorem ResolveEnds.referencedEnds {path : List Value} {done : Patterns} {name : Text} {v : Value}
    (hdone : done.get? (.text name) = none) (hcontains : ¬ path.contains (.text name) = true)
    (hget : config.get? (.text name) = some v)
    (h : config.ResolveEnds path done (.text name) v) : config.ReferencedEnds path done name := by
  intro names m hpath href hsound
  have hends := h (names ++ [m]) name (hpath.append href) rfl hget hsound
  rw [referenced_of_configured hdone hcontains hget]
  exact hends.imp (fun _ hr => ⟨hr.1, hr.2.1⟩) fun _ hf => hf

/-- A text denotes what its pieces stand for, and is finished then. -/
theorem SubstituteEnds.resolveEnds {path : List Value} {done : Patterns} {name : Value} {t : Text}
    (h : config.SubstituteEnds (path ++ [name]) done t.segments) :
    config.ResolveEnds path done name (.text t) := by
  rintro names n hpath rfl hget hsound
  have hdiv := t.divides_segments
  have hends := h names n hpath (fun m hmem => (refers_iff hget hdiv).mpr hmem) hsound
  rw [resolve]
  refine hends.bind ?_
  rintro ⟨p, done'⟩ ⟨hfills, hextends⟩
  -- the references have finished what they need, and the pattern of this name joins it
  have hp : config.Denotes n p := ⟨t, t.segments, hget, hdiv, hfills⟩
  refine ⟨hp, hextends.trans (extends_put hextends.sound hp), ?_⟩
  show (done'.put (.text n) p).get? (.text n) = some p
  rw [Entries.get?_put, Value.text_beq_text, beq_self_eq_true, if_pos rfl]

/-- What is no text is refused, if it can be shown. -/
theorem resolveEnds_of_not_text {path : List Value} {done : Patterns} {name value : Value}
    (hvalue : ∀ t, value = .text t → False) : config.ResolveEnds path done name value := by
  rintro names n hpath rfl hget hsound
  rw [resolve_text_of_not_text hvalue]
  cases hshown : value.inspect with
  | ok shown => exact .notText n shown value hget hvalue hshown
  | error f => exact .notShown n value f hget hvalue hshown

/-- No pieces stand for the empty text, and nothing is finished. -/
theorem substituteEnds_nil {path : List Value} {done : Patterns} :
    config.SubstituteEnds path done [] := by
  intro names n hpath hrefs hsound
  rw [substitute]
  exact ⟨.nil, .refl hsound⟩

/-- A single character stands for itself in front of what the rest stands for. -/
theorem SubstituteEnds.plain {path : List Value} {done : Patterns} {c : CodePoint}
    {segments : List Segment} (h : config.SubstituteEnds path done segments) :
    config.SubstituteEnds path done (.plain c :: segments) := by
  intro names n hpath hrefs hsound
  have hends := h names n hpath (fun m hmem => hrefs m (List.mem_cons_of_mem _ hmem)) hsound
  rw [substitute]
  refine hends.bind ?_
  rintro ⟨p, done'⟩ ⟨hfills, hextends⟩
  exact ⟨.plain c segments p hfills, hextends⟩

/-- Behind a reference the rest is replaced with what the reference has finished. -/
theorem ReferencedEnds.substituteEnds {path : List Value} {done : Patterns} {name : Text}
    {segments : List Segment} (hname : config.ReferencedEnds path done name)
    (h : ∀ done', config.SubstituteEnds path done' segments) :
    config.SubstituteEnds path done (.reference name :: segments) := by
  intro names n hpath hrefs hsound
  rw [substitute]
  refine (hname names n hpath (hrefs name List.mem_cons_self) hsound).bind ?_
  rintro ⟨inner, done₁⟩ ⟨hinner, hextends₁⟩
  -- what the first reference has finished is right, and the rest begins from there
  have hrest := h done₁ names n hpath (fun m hmem => hrefs m (List.mem_cons_of_mem _ hmem))
    hextends₁.sound
  refine hrest.bind ?_
  rintro ⟨p, done₂⟩ ⟨hfills, hextends₂⟩
  exact ⟨hinner.fills_cons hfills, hextends₁.trans hextends₂⟩

/-- The three functions end in what the names denote, or in an error that names a fault. -/
theorem resolution_ends (config : Config) :
    (∀ path done name, config.ReferencedEnds path done name) ∧
    (∀ path done name value, config.ResolveEnds path done name value) ∧
    (∀ path done segments, config.SubstituteEnds path done segments) :=
  -- the recursion gives one case for each way through the three functions, in this order: four for
  -- a reference, two for a configured value, three for pieces
  referenced.mutual_induct config config.ReferencedEnds config.ResolveEnds config.SubstituteEnds
    (fun _ _ _ _ hdone => referencedEnds_of_finished hdone)
    (fun _ _ _ hdone hcontains => referencedEnds_of_contains hdone hcontains)
    (fun _ _ _ hdone hcontains hget => referencedEnds_of_none hdone hcontains hget)
    (fun _ _ _ hdone hcontains _ hget h => h.referencedEnds hdone hcontains hget)
    (fun _ _ _ _ h => h.resolveEnds)
    (fun _ _ _ _ hvalue => resolveEnds_of_not_text hvalue)
    (fun _ _ => substituteEnds_nil)
    (fun _ _ _ _ h => h.plain)
    (fun _ _ _ _ hname h => hname.substituteEnds h)

/-- The resolution of a configured name begins with no name under way. -/
theorem resolve_ends {done : Patterns} {n : Text} {v : Value}
    (hget : config.get? (.text n) = some v) (hdone : config.IsSound done) :
    Ends (fun r => config.Denotes n r.1 ∧ config.Extends done r.2 ∧
      r.2.get? (.text n) = some r.1) config.Explains (config.resolve [] done (.text n) v) := by
  have hpath : config.IsPath ([] ++ [.text n]) [] n := ⟨rfl, List.isChain_singleton n⟩
  exact (resolution_ends config).2.1 [] done (.text n) v [] n hpath rfl hget hdone

end Config

end UriTemplate
