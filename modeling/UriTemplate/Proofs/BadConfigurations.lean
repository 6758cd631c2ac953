import UriTemplate.Proofs.Loading
import UriTemplate.Proofs.MixedNames

/-!
# Bad configurations

A configuration can be of any shape: no mapping at all, names and templates of any type, and
references that lead anywhere.  What is wrong with it is reported as an error of configuration,
with few exceptions (`ofValue_escapes`): the report shows names and templates, and not all of them
can be shown; it joins the names on a circle, and not all of them are texts; and lengths with too
many digits are not read at all.

Nothing is assumed of the names here.  They need not be texts, nor different from each other, nor
even equal to themselves.
-/

namespace UriTemplate

namespace Config

variable {config front back : Config} {patterns : Patterns} {k v : Value}

/-- The text that is put together for an entry: the one under the name, or under a name that is the
same key, with all references replaced. -/
def Stands (config : Config) (k : Value) (p : Text) : Prop :=
  ∃ k' t segments, (k' = k ∨ (k' == k) = true) ∧ (k', .text t) ∈ config ∧ t.Divides segments ∧
    config.Fills segments p

/-- An entry under the first name refers to the second one. -/
def Mentions (config : Config) (k : Value) (n : Text) : Prop :=
  ∃ t segments, (k, .text t) ∈ config ∧ t.Divides segments ∧ .reference n ∈ segments

/-- The faults of a configuration that are not reported as such. -/
inductive Escapes (config : Config) : Fault → Prop
  /-- References lead to a circle from a name that is no text, and so cannot be joined to the
  names on the circle. -/
  | circle (k : Value) (m n : Text) (hk : ∀ t, k ≠ .text t) (hmention : config.Mentions k m)
      (hm : Relation.ReflTransGen config.Refers m n) (hn : Relation.TransGen config.Refers n n) :
      Escapes config (.misuse .notText)
  /-- A template is no text, and it or its name cannot be shown. -/
  | notShown (k v : Value) (f : Fault) (hmem : (k, v) ∈ config) (hv : ∀ t, v ≠ .text t)
      (hshown : k.inspect = .error f ∨ v.inspect = .error f) : Escapes config f
  /-- A text is not parsed, and its name cannot be shown. -/
  | unparsable (k : Value) (p : Text) (f : Fault) (hp : config.Stands k p)
      (hparse : ∀ T, Template.parse p ≠ .ok T) (hshown : k.inspect = .error f) : Escapes config f
  /-- A text has a prefix length with too many digits to be read. -/
  | oversized (k : Value) (p : Text) (digits : Nat) (hp : config.Stands k p)
      (hparse : Template.parse p = .error (.oversizedLength digits)) :
      Escapes config (.parse (.oversizedLength digits))

/-- None of them is an error of configuration. -/
theorem Escapes.isA_eq_false {f : Fault} (h : config.Escapes f) :
    f.kind.isA .config = false := by
  -- showing a value fails by its type or by its size, and neither error is one of configuration
  have hunshown {v : Value} (hshown : v.inspect = .error f) : f.kind.isA .config = false := by
    rcases Value.inspect_shows v f hshown with rfl | rfl
    · rfl
    · rfl
  cases h with
  | circle k m n hk hmention hm hn => rfl
  | notShown k v f hmem hv hshown => exact hshown.elim hunshown hunshown
  | unparsable k p f hp hparse hshown => exact hunshown hshown
  | oversized k p digits hp hparse => rfl

/-- An error of loading reports a bad configuration, or it is one of the others. -/
def Reports (config : Config) (f : Fault) : Prop := f.kind.isA .config = true ∨ config.Escapes f

/-! ## Entries under texts -/

/-- What is found under a text stands in an entry under this text. -/
theorem mem_of_get? {n : Text} (h : config.get? (.text n) = some v) : (.text n, v) ∈ config := by
  induction config with
  | nil => cases h
  | cons e rest ih =>
    obtain ⟨x, w⟩ := e
    simp only [Entries.get?] at h
    -- the first entry under the text is found, be its key the text or merely equal to it
    split at h
    · next hx =>
      cases h
      rw [Value.eq_text_of_beq hx]
      exact List.mem_cons_self
    · exact List.mem_cons_of_mem _ (ih h)

/-- The first entry under a text is found. -/
theorem get?_of_split {n : Text} (hsplit : config = front ++ (.text n, v) :: back)
    (hfront : .text n ∉ front.keys) : config.get? (.text n) = some v := by
  subst hsplit
  induction front with
  | nil =>
    rw [List.nil_append, Entries.get?, if_pos (by rw [Value.text_beq_text, beq_self_eq_true])]
  | cons e rest ih =>
    obtain ⟨x, w⟩ := e
    obtain ⟨hx, hrest⟩ := List.ne_and_not_mem_of_not_mem_cons hfront
    rw [List.cons_append, Entries.get?, if_neg fun h => hx (Value.eq_text_of_beq h).symm, ih hrest]

/-- What a name denotes is put together for it as for any other entry. -/
theorem Denotes.stands {n p : Text} (h : config.Denotes n p) : config.Stands (.text n) p := by
  obtain ⟨t, segments, hget, hdiv, hfills⟩ := h
  exact ⟨.text n, t, segments, .inl rfl, mem_of_get? hget, hdiv, hfills⟩

/-- What goes wrong at a name that is a text is reported, if it can be shown. -/
theorem Explains.reports {f : Fault} (h : config.Explains f) : config.Reports f := by
  cases h with
  | unknown m n => exact .inl rfl
  | circle names n => exact .inl rfl
  | notText n shown v => exact .inl rfl
  | notShown n v _ hget hv hshown =>
    exact .inr (.notShown (.text n) v f (mem_of_get? hget) hv (.inr hshown))

/-- A name that is no text changes this for the circles. -/
theorem Strands.reports {m : Text} {g : Fault} (hk : ∀ n, k ≠ .text n)
    (hmention : config.Mentions k m) (h : config.Strands m g) : config.Reports g.unworded := by
  cases h with
  | config e =>
    left
    cases e with
    | unknownTemplate name => rfl
    | _ => rfl
  | circle names n hm hn => exact .inr (.circle k m n hk hmention hm hn)
  | notShown n v _ hget hv hshown =>
    -- only circles are put in other words
    rw [(Value.inspect_shows v g hshown).unworded_eq]
    exact .inr (.notShown (.text n) v g (mem_of_get? hget) hv (.inr hshown))

/-! ## The patterns of the entries -/

/-- The patterns behind some entries: every one is put together for its name, and there is one
under each text that has been read as a name. -/
structure HasRead (config front : Config) (patterns : Patterns) : Prop where
  sound : config.IsSound patterns
  others : ∀ k p, (∀ n, k ≠ .text n) → patterns.get? k = some p → config.Stands k p
  texts : ∀ n, .text n ∈ front.keys → ∃ p, patterns.get? (.text n) = some p

/-- The names in front of an entry and that of the entry itself. -/
theorem mem_keys_concat {x : Value} :
    x ∈ (front ++ [(k, v)]).keys ↔ x ∈ front.keys ∨ x = k := by
  simp [Entries.keys]

/-- Patterns that are finished on the way leave those of other names as they are. -/
theorem HasRead.extend (h : HasRead config front patterns) {patterns' : Patterns}
    (hextends : config.Extends patterns patterns') (hkeeps : KeepsOthers patterns patterns') :
    HasRead config front patterns' := by
  refine ⟨hextends.sound, fun k p hk hp => h.others k p hk (by rw [← hkeeps k hk, hp]), ?_⟩
  intro n hn
  obtain ⟨p, hp⟩ := h.texts n hn
  exact ⟨p, hextends.keeps n p hp⟩

/-- A text joins the names that were read when its pattern is there. -/
theorem HasRead.concat_text (h : HasRead config front patterns) {n p : Text}
    (hp : patterns.get? (.text n) = some p) :
    HasRead config (front ++ [(.text n, v)]) patterns := by
  refine ⟨h.sound, h.others, fun m hm => ?_⟩
  rcases mem_keys_concat.mp hm with hm | hm
  · exact h.texts m hm
  · cases hm
    exact ⟨p, hp⟩

/-- A name that is no text needs no pattern of its own to be read. -/
theorem HasRead.concat_other (h : HasRead config front patterns) (hk : ∀ n, k ≠ .text n) :
    HasRead config (front ++ [(k, v)]) patterns := by
  refine ⟨h.sound, h.others, fun m hm => ?_⟩
  rcases mem_keys_concat.mp hm with hm | hm
  · exact h.texts m hm
  · exact absurd hm.symm (hk m)

/-- A pattern is put under a name that is no text. -/
theorem HasRead.put (h : HasRead config front patterns) (hk : ∀ n, k ≠ .text n) {p t : Text}
    {segments : List Segment} (hmem : (k, .text t) ∈ config) (hdiv : t.Divides segments)
    (hfills : config.Fills segments p) : HasRead config front (patterns.put k p) := by
  -- the texts are other names
  have hget (n : Text) : (patterns.put k p).get? (.text n) = patterns.get? (.text n) := by
    rw [Entries.get?_put, if_neg fun heq => hk n (Value.eq_text_of_beq heq)]
  refine ⟨fun n q hq => h.sound n q (by rw [← hget, hq]), ?_, fun n hn => ?_⟩
  · intro j q hj hq
    rw [Entries.get?_put] at hq
    -- a name that is the same key gets this pattern too, and every other one keeps its own
    split at hq
    · next heq =>
      cases hq
      exact ⟨k, t, segments, .inr heq, hmem, hdiv, hfills⟩
    · exact h.others j q hj hq
  · -- the patterns of texts are those from before
    obtain ⟨q, hq⟩ := h.texts n hn
    exact ⟨q, by rw [hget, hq]⟩

/-- An entry under a text is read behind those in front of it. -/
theorem HasRead.text_ends (h : HasRead config front patterns) {n : Text}
    (hsplit : config = front ++ (.text n, v) :: back) :
    Ends (fun x => config.Stands (.text n) x.1 ∧ HasRead config (front ++ [(.text n, v)]) x.2)
      config.Reports
      (match patterns.get? (.text n) with
        | some p => .ok (p, patterns)
        | none => config.resolve [] patterns (.text n) v) := by
  split
  · next p hp => exact ⟨(h.sound n p hp).stands, h.concat_text hp⟩
  · next hnone =>
    -- no entry in front has this name, so that it is this one that is found
    have hfront : .text n ∉ front.keys := fun hn => by
      obtain ⟨p, hp⟩ := h.texts n hn
      rw [hnone] at hp
      cases hp
    have hget := get?_of_split hsplit hfront
    have hkeeps := (resolution_keeps config).2.1 [] patterns (.text n) v n rfl (by simp)
    refine ((resolve_ends hget h.sound).and hkeeps).imp ?_ fun f hf => hf.1.reports
    rintro ⟨p, patterns'⟩ ⟨⟨hp, hextends, hput⟩, hkeeps⟩
    exact ⟨hp.stands, (h.extend hextends hkeeps.others).concat_text hput⟩

/-- The same under a name that is no text. -/
theorem HasRead.other_ends (h : HasRead config front patterns) (hk : ∀ n, k ≠ .text n)
    (hmem : (k, v) ∈ config) :
    Ends (fun x => config.Stands k x.1 ∧ HasRead config (front ++ [(k, v)]) x.2) config.Reports
      (match patterns.get? k with
        | some p => .ok (p, patterns)
        | none => config.resolve [] patterns k v) := by
  split
  · next p hp => exact ⟨h.others k p hk hp, h.concat_other hk⟩
  · -- a text is substituted with the name alone on the path; anything else is refused at once
    by_cases hv : ∃ t, v = .text t
    · obtain ⟨t, rfl⟩ := hv
      have hdiv := t.divides_segments
      rw [resolve, List.nil_append]
      refine ((substitute_singleton_ends hk h.sound t.segments).imp (fun _ hr => hr) ?_).bind ?_
      · rintro f ⟨m, g, hm, hg, rfl⟩
        exact hg.reports hk ⟨t, t.segments, hmem, hdiv, hm⟩
      · rintro ⟨p, patterns'⟩ ⟨hfills, hextends, hothers⟩
        have hread := (h.extend hextends hothers).put hk hmem hdiv hfills
        exact ⟨⟨k, t, t.segments, .inl rfl, hmem, hdiv, hfills⟩, hread.concat_other hk⟩
    · have hno : ∀ t, v ≠ .text t := fun t ht => hv ⟨t, ht⟩
      rw [resolve_of_not_text hno]
      -- the name is shown first, and then the template
      cases hname : k.inspect with
      | error f => exact .inr (.notShown k v f hmem hno (.inl hname))
      | ok name =>
        cases hshown : v.inspect with
        | error f => exact .inr (.notShown k v f hmem hno (.inr hshown))
        | ok shown => exact .inl rfl

/-! ## Failing references -/

/-- A text that begins with a reference fails as the reference does. -/
theorem substitute_of_referenced {path : List Value} {done : Patterns} {n : Text}
    {rest : List Segment} {f : Fault} (h : config.referenced path done n = .error f) :
    config.substitute path done (.reference n :: rest) = .error f := by
  rw [substitute, h]
  rfl

/-- A reference to a text that begins with a reference fails as the latter does. -/
theorem referenced_of_referenced {path : List Value} {done : Patterns} {m n t : Text}
    {rest : List Segment} {f : Fault} (hdone : done.get? (.text m) = none)
    (hpath : ¬ path.contains (.text m) = true) (hget : config.get? (.text m) = some (.text t))
    (hdiv : t.segments = .reference n :: rest)
    (h : config.referenced (path ++ [.text m]) done n = .error f) :
    config.referenced path done m = .error f := by
  rw [referenced_of_configured hdone hpath hget, resolve, hdiv,
    substitute_of_referenced h]
  rfl

end Config

/-! ## Loading -/

namespace Resolver

variable {config front back : Config} {r : Resolver}

/-- The entries in front are read, and what is put together for their names is parsed. -/
structure HasParsed (config front : Config) (r : Resolver) : Prop where
  config_eq : r.config = config
  read : config.HasRead front r.patterns
  parses : ∀ k ∈ front.keys, ∃ p T, config.Stands k p ∧ Template.parse p = .ok T

/-- The text that is put together for a name is parsed, or refused. -/
theorem parsePattern_reports {k : Value} {p : Text} (hp : config.Stands k p) :
    Ends (fun T => Template.parse p = .ok T) config.Reports (parsePattern k p) := by
  unfold parsePattern
  split
  · next T hT => exact hT
  · next digits hparse => exact .inr (.oversized k p digits hp hparse)
  · next e hlength hparse =>
    cases hname : k.inspect with
    | error f => exact .inr (.unparsable k p f hp (fun T => ne_ok_of_eq_error hparse) hname)
    | ok name => exact .inl rfl

/-- One entry is loaded behind those in front of it. -/
theorem add_reports {e : Value × Value} (hsplit : config = front ++ e :: back)
    (h : HasParsed config front r) :
    Ends (HasParsed config (front ++ [e])) config.Reports (r.add e) := by
  obtain ⟨k, v⟩ := e
  have hpattern : Ends (fun x => config.Stands k x.1 ∧ config.HasRead (front ++ [(k, v)]) x.2)
      config.Reports (match r.patterns.get? k with
        | some p => .ok (p, r.patterns)
        | none => config.resolve [] r.patterns k v) := by
    -- only texts are found under their own names
    by_cases hk : ∃ n, k = .text n
    · obtain ⟨n, rfl⟩ := hk
      exact h.read.text_ends hsplit
    · have hmem : (k, v) ∈ config := by
        rw [hsplit]
        exact List.mem_append_right _ List.mem_cons_self
      exact h.read.other_ends (fun n hn => hk ⟨n, hn⟩) hmem
  rw [add_eq, h.config_eq]
  refine hpattern.bind ?_
  rintro ⟨p, patterns⟩ ⟨hp, hread⟩
  refine (parsePattern_reports hp).bind fun T hT => ⟨rfl, hread, fun k' hk' => ?_⟩
  -- the names in front are parsed already, and this one has just been
  rcases Config.mem_keys_concat.mp hk' with hk' | rfl
  · exact h.parses k' hk'
  · exact ⟨p, T, hp, hT⟩

/-- Loading succeeds where all texts are put together and parsed, and otherwise fails in an error
of configuration or in one of the others. -/
theorem load_reports (config : Config) :
    Ends (fun _ => ∀ k ∈ config.keys, ∃ p T, config.Stands k p ∧ Template.parse p = .ok T)
      config.Reports (load config) := by
  have hread : config.HasRead [] [] :=
    ⟨fun _ _ hp => (nomatch hp), fun _ _ _ hp => (nomatch hp), fun _ hn =>
      absurd hn List.not_mem_nil⟩
  have hstart : HasParsed config [] ⟨config, [], []⟩ :=
    ⟨rfl, hread, fun _ hk => absurd hk List.not_mem_nil⟩
  have hrun : Ends (HasParsed config config) config.Reports (load config) :=
    Ends.foldlM (fun _ _ _ _ hsplit h => add_reports hsplit h) hstart
  exact hrun.imp (fun _ h => h.parses) fun _ hf => hf

/-- A value is a configuration with these templates. -/
def IsConfiguration (v : Value) (config : Config) : Prop :=
  ∃ entries, v = .map entries ∧ Entries.get? (.text templatesKey) entries = some (.map config)

/-- Without a mapping of templates there is nothing to load. -/
theorem ofValue_ends (v : Value) :
    (∃ config, IsConfiguration v config ∧ ofValue v = load config) ∨
      ofValue v = .error (.config .noTemplates) := by
  unfold ofValue
  split
  · next entries =>
    split
    · next config hget => exact .inl ⟨config, ⟨entries, rfl, hget⟩, rfl⟩
    · exact .inr rfl
  · exact .inr rfl

/-- What a first text refers to is not put into words under a name that is no text. -/
theorem load_of_referenced {k : Value} {n t : Text} {segments : List Segment} {g : Fault}
    (hk : ∀ m, k ≠ .text m) {rest : Config} (hconfig : config = (k, .text t) :: rest)
    (hdiv : t.segments = .reference n :: segments) (h : config.referenced [] [] n = .error g) :
    load config = .error g.unworded := by
  have hresolve : config.resolve [] [] k (.text t) = .error g.unworded := by
    rw [Config.resolve, List.nil_append, hdiv, (config.resolution_cons hk).2.2,
      Config.substitute_of_referenced h]
    rfl
  -- the first entry is added to an empty resolver, and the rest is not reached
  have hload : load config = add ⟨config, [], []⟩ (k, .text t) >>= fun r => rest.foldlM add r := by
    conv_lhs => rw [load, hconfig, List.foldlM_cons, ← hconfig]
  rw [hload, add_eq]
  refine bind_eq_error.mpr (.inl (bind_eq_error.mpr (.inl ?_)))
  exact hresolve

/-- A resolver is loaded only from a configuration in which all texts can be put together and
parsed.  Otherwise there is an error of configuration, unless the configuration has a fault that
cannot be reported as such: a circle behind a name that is no text, a name or a template that cannot
be shown, or a length with too many digits. -/
theorem ofValue_escapes (v : Value) :
    (∀ r, ofValue v = .ok r → ∃ config : Config, IsConfiguration v config ∧
      ∀ k ∈ config.keys, ∃ p T, config.Stands k p ∧ Value.parse (.text p) = .ok T) ∧
    ∀ f, ofValue v = .error f → (f.kind.isA .config = false ↔
      ∃ config : Config, IsConfiguration v config ∧ config.Escapes f) := by
  simp only [Value.parse_text_eq_ok]
  -- either there is something to load, or the error is one of configuration
  rcases ofValue_ends v with ⟨config, hconfig, hload⟩ | hnone
  · rw [hload]
    refine ⟨fun r hr => ⟨config, hconfig, (load_reports config).ok hr⟩, fun f hf => ⟨?_, ?_⟩⟩
    · intro hkind
      rcases (load_reports config).error hf with hreported | hescapes
      · rw [hkind] at hreported
        cases hreported
      · exact ⟨config, hconfig, hescapes⟩
    · rintro ⟨_, -, hescapes⟩
      exact hescapes.isA_eq_false
  · rw [hnone]
    refine ⟨nofun, fun f hf => ?_⟩
    cases hf
    refine ⟨nofun, ?_⟩
    rintro ⟨_, -, hescapes⟩
    exact hescapes.isA_eq_false

/-- Two texts that refer to each other, and an integer under which a text refers to one of them. -/
theorem ofValue_escapes_circle :
    ∃ config : Config, config = [(.int 1, .text "<a>".toText),
        (.text "a".toText, .text "<b>".toText), (.text "b".toText, .text "<a>".toText)] ∧
      ∃ f, ofValue (.map [(.text templatesKey, .map config)]) = .error f ∧
        f.kind.isA .config = false := by
  have ha : "<a>".toText.segments = [.reference "a".toText] := by decide +kernel
  have hb : "<b>".toText.segments = [.reference "b".toText] := by decide +kernel
  obtain ⟨config, hconfig⟩ : ∃ config : Config, config = [(.int 1, .text "<a>".toText),
    (.text "a".toText, .text "<b>".toText), (.text "b".toText, .text "<a>".toText)] := ⟨_, rfl⟩
  have hgeta : config.get? (.text "a".toText) = some (.text "<b>".toText) := by
    rw [hconfig]
    rfl
  have hgetb : config.get? (.text "b".toText) = some (.text "<a>".toText) := by
    rw [hconfig]
    rfl
  -- the references lead from `a` to `b` and back
  have hab : config.Refers "a".toText "b".toText :=
    (Config.refers_iff hgeta (Text.divides_segments _)).mpr (by rw [hb]; exact List.mem_cons_self)
  have hba : config.Refers "b".toText "a".toText :=
    (Config.refers_iff hgetb (Text.divides_segments _)).mpr (by rw [ha]; exact List.mem_cons_self)
  have hcircle : config.referenced [] [] "a".toText =
      .error (.invalid (.circularReference ["a".toText, "b".toText, "a".toText])) :=
    Config.referenced_of_referenced rfl (by simp) hgeta hb <|
      Config.referenced_of_referenced rfl (by decide) hgetb ha <|
        Config.referenced_of_contains rfl (by decide)
  have hload : ofValue (.map [(.text templatesKey, .map config)]) = .error (.misuse .notText) := by
    rw [ofValue_eq_load rfl]
    exact load_of_referenced (k := .int 1) nofun hconfig ha hcircle
  -- the integer begins with a reference into the circle
  have hmention : config.Mentions (.int 1) "a".toText := by
    refine ⟨"<a>".toText, _, ?_, Text.divides_segments _, by rw [ha]; exact List.mem_cons_self⟩
    rw [hconfig]
    exact List.mem_cons_self
  refine ⟨config, hconfig, _, hload, ((ofValue_escapes _).2 _ hload).mpr ?_⟩
  refine ⟨config, ⟨_, rfl, rfl⟩, ?_⟩
  exact .circle (.int 1) "a".toText "a".toText nofun hmention .refl (.head hab (.single hba))

/-- The circle is found here, and it should be an error of configuration. -/
theorem ofValue_circle_behind_integer :
    ∃ config : Config, config = [(.int 1, .text "<a>".toText),
        (.text "a".toText, .text "<a>".toText)] ∧
      (∀ e ∈ config, ∃ t, e.2 = .text t ∧ t.HasReadableLengths) ∧
      ∃ f, ofValue (.map [(.text templatesKey, .map config)]) = .error f ∧ f.kind = .type ∧
        f.kind.isA .config = false := by
  have ha : "<a>".toText.segments = [.reference "a".toText] := by decide +kernel
  have hlengths : "<a>".toText.HasReadableLengths :=
    Text.hasReadableLengths_of_length _ (by decide)
  obtain ⟨config, hconfig⟩ : ∃ config : Config, config = [(.int 1, .text "<a>".toText),
    (.text "a".toText, .text "<a>".toText)] := ⟨_, rfl⟩
  have hget : config.get? (.text "a".toText) = some (.text "<a>".toText) := by
    rw [hconfig]
    rfl
  -- the text refers to itself
  have hcircle : config.referenced [] [] "a".toText =
      .error (.invalid (.circularReference ["a".toText, "a".toText])) :=
    Config.referenced_of_referenced rfl (by simp) hget ha <|
      Config.referenced_of_contains rfl (by decide)
  -- putting the path into words fails at the integer
  have hload : ofValue (.map [(.text templatesKey, .map config)]) = .error (.misuse .notText) := by
    rw [ofValue_eq_load rfl]
    exact load_of_referenced (k := .int 1) nofun hconfig ha hcircle
  refine ⟨config, hconfig, ?_, _, hload, rfl, rfl⟩
  rw [hconfig]
  exact List.forall_mem_cons.mpr ⟨⟨_, rfl, hlengths⟩, List.forall_mem_singleton.mpr
    ⟨_, rfl, hlengths⟩⟩

end Resolver

end UriTemplate
