import UriTemplate.Proofs.ParserCorrect
import UriTemplate.Proofs.PatternMemo
import UriTemplate.Proofs.ValueTexts
import UriTemplate.Resolver.Basic

/-!
# Loading a configuration

A configuration is read entry by entry.  Behind each entry the resolver has, for every name read
so far, the text that the name denotes and the template of that text (`HasLoaded`), however many
other patterns are finished by then.  So loading ends with all names loaded, or in an error that
names a fault of the configuration (`load_ends`), and it succeeds just if the configuration has
no fault (`ofValue_succeeds_iff`).

References can be followed from every name just if every name denotes a text
(`isResolvable_iff`): a configuration is resolved as soon as it has no circle and no loose end.
-/

namespace UriTemplate

/-! ## Entries under texts -/

namespace Entries

variable {β : Type} {entries : Entries Value β}

/-- The names of the entries are texts, and no two entries have the same one. -/
structure HasTextNames (entries : Entries Value β) : Prop where
  exists_text : ∀ k ∈ entries.keys, ∃ n, k = .text n
  nodup : entries.keys.Nodup

/-- Different texts are different names. -/
theorem nodup_map_text {names : List Text} (h : names.Nodup) : (names.map Value.text).Nodup :=
  List.pairwise_map.mpr (h.imp fun hne heq => hne (Value.text.inj heq))

/-- Different texts under which entries stand are names as they should be. -/
theorem hasTextNames_of_keys_eq {names : List Text} (hkeys : entries.keys = names.map .text)
    (hnodup : names.Nodup) : entries.HasTextNames := by
  constructor
  · rw [hkeys]
    exact List.forall_mem_map.mpr fun n _ => ⟨n, rfl⟩
  · rw [hkeys]
    exact nodup_map_text hnodup

/-- Nothing is found under a text just if it is not among the names. -/
theorem get?_eq_none_iff (h : ∀ k ∈ entries.keys, ∃ n, k = .text n) (n : Text) :
    entries.get? (.text n) = none ↔ .text n ∉ entries.keys := by
  rw [get?_eq_none_iff_forall]
  constructor
  · intro hne hmem
    have hself := hne _ hmem
    rw [Value.text_beq_text, beq_self_eq_true] at hself
    cases hself
  · intro hnot k hk
    obtain ⟨m, rfl⟩ := h k hk
    rw [Value.text_beq_text, beq_eq_false_iff_ne]
    rintro rfl
    exact hnot hk

/-- What is found under a text is what stands under it. -/
theorem get?_eq_some_iff (h : entries.HasTextNames) (n : Text) (v : β) :
    entries.get? (.text n) = some v ↔ (.text n, v) ∈ entries := by
  obtain ⟨htexts, hnodup⟩ := h
  -- the names are different, so the first entry under a text is the only one
  induction entries with
  | nil => simp [get?]
  | cons e rest ih =>
    obtain ⟨k, w⟩ := e
    obtain ⟨m, rfl⟩ := htexts k List.mem_cons_self
    obtain ⟨hfresh, hnodup⟩ := List.nodup_cons.mp hnodup
    have hrest := ih (fun k hk => htexts k (List.mem_cons_of_mem _ hk)) hnodup
    simp only [get?, Value.text_beq_text, List.mem_cons, Prod.mk.injEq, Value.text.injEq]
    by_cases hmn : m = n
    · -- the name of the first entry stands under no other one
      subst hmn
      have hnot : (.text m, v) ∉ rest := fun hmem => hfresh (List.mem_map.mpr ⟨_, hmem, rfl⟩)
      simp [hnot, eq_comm]
    · simp [hmn, hrest, Ne.symm hmn]

/-- A text is among the names just if something is found under it. -/
theorem mem_keys_iff (h : entries.HasTextNames) (n : Text) :
    .text n ∈ entries.keys ↔ ∃ v, entries.get? (.text n) = some v := by
  rw [← Option.ne_none_iff_exists', Ne, get?_eq_none_iff h.exists_text, Classical.not_not]

/-- A text that is not yet a name becomes the last one when it is written. -/
theorem keys_put_of_notMem (h : ∀ k ∈ entries.keys, ∃ n, k = .text n) {n : Text} (v : β)
    (hn : .text n ∉ entries.keys) : (entries.put (.text n) v).keys = entries.keys ++ [.text n] :=
  keys_put_of_get?_eq_none ((get?_eq_none_iff h n).mpr hn) v

end Entries

/-! ## Resolvable configurations -/

namespace Config

variable {config : Config}

/-- Every template is a text, and references lead to configured names and never back. -/
structure IsResolvable (config : Config) : Prop where
  texts : ∀ e ∈ config, ∃ t, e.2 = .text t
  configured : ∀ m n, config.Refers m n → .text n ∈ config.keys
  acyclic : ∀ n, ¬ Relation.TransGen config.Refers n n

/-- No error of the resolution has a reason in such a configuration. -/
theorem IsResolvable.not_explains (h : config.IsResolvable) (hnames : config.HasTextNames)
    (f : Fault) : ¬ config.Explains f := by
  have htext {n : Text} {v : Value} (hget : config.get? (.text n) = some v) : ∃ t, v = .text t :=
    h.texts _ ((Entries.get?_eq_some_iff hnames n v).mp hget)
  intro hf
  -- each reason contradicts one of the three conditions
  cases hf with
  | unknown m n href hget =>
    exact (Entries.get?_eq_none_iff hnames.exists_text n).mp hget (h.configured m n href)
  | circle names n hchain hmem => exact h.acyclic n (transGen_of_isChain hchain hmem)
  | notText n shown v hget hv hshown =>
    obtain ⟨t, ht⟩ := htext hget
    exact hv t ht
  | notShown n v f hget hv hshown =>
    obtain ⟨t, ht⟩ := htext hget
    exact hv t ht

/-- In such a configuration every name denotes a text. -/
theorem IsResolvable.exists_denotes (h : config.IsResolvable) (hnames : config.HasTextNames)
    {n : Text} (hn : .text n ∈ config.keys) : ∃ p, config.Denotes n p := by
  -- the resolution of the name ends, and not in an error
  obtain ⟨v, hget⟩ := (Entries.mem_keys_iff hnames n).mp hn
  have hempty : config.IsSound [] := fun _ _ hp => nomatch hp
  have hends := resolve_ends hget hempty
  cases hrun : config.resolve [] [] (.text n) v with
  | ok r => exact ⟨r.1, (hends.ok hrun).1⟩
  | error f => exact absurd (hends.error hrun) (h.not_explains hnames f)

/-- Only configured names denote texts. -/
theorem Denotes.mem_keys (hnames : config.HasTextNames) {n p : Text} (h : config.Denotes n p) :
    .text n ∈ config.keys := by
  obtain ⟨t, segments, hget, -⟩ := h
  exact (Entries.mem_keys_iff hnames n).mpr ⟨_, hget⟩

/-- All references can be followed just if every name denotes a text. -/
theorem isResolvable_iff (hnames : config.HasTextNames) :
    config.IsResolvable ↔ ∀ n, .text n ∈ config.keys → ∃ p, config.Denotes n p := by
  refine ⟨fun h n hn => h.exists_denotes hnames hn, fun h => ?_⟩
  have hdenotes {m n : Text} (href : config.Refers m n) : ∃ p, config.Denotes m p := by
    obtain ⟨t, segments, hget, -⟩ := href
    exact h m ((Entries.mem_keys_iff hnames m).mpr ⟨_, hget⟩)
  -- texts, configured names, and no circle
  constructor
  · intro ⟨k, v⟩ hmem
    obtain ⟨n, rfl⟩ := hnames.exists_text k (List.mem_map_of_mem hmem)
    -- what denotes a text has a text configured for it
    obtain ⟨p, t, segments, hget, -⟩ := h n (List.mem_map_of_mem hmem)
    rw [(Entries.get?_eq_some_iff hnames n v).mpr hmem] at hget
    exact ⟨t, Option.some.inj hget⟩
  · intro m n href
    obtain ⟨p, hp⟩ := hdenotes href
    obtain ⟨q, hq⟩ := hp.exists_of_refers href
    exact hq.mem_keys hnames
  · intro n hcycle
    -- the circle leaves its name by a reference in the text of the name
    obtain ⟨m, href, -⟩ := Relation.TransGen.head'_iff.mp hcycle
    obtain ⟨p, hp⟩ := hdenotes href
    exact hp.not_transGen hcycle

/-- The fault of a configuration that an error of loading reports. -/
inductive Refuses (config : Config) : Fault → Prop
  /-- A reference cannot be followed. -/
  | unresolved (f : Fault) (h : config.Explains f) : Refuses config f
  /-- What a name denotes cannot be parsed. -/
  | unparsable (n p : Text) (e : ParseError) (hp : config.Denotes n p)
      (hparse : Template.parse p = .error e) (hlength : ∀ digits, e ≠ .oversizedLength digits) :
      Refuses config (.config (.invalidTemplate n.quoted e))
  /-- What a name denotes has a prefix length with too many digits to be read. -/
  | oversized (n p : Text) (digits : Nat) (hp : config.Denotes n p)
      (hparse : Template.parse p = .error (.oversizedLength digits)) :
      Refuses config (.parse (.oversizedLength digits))

end Config

/-! ## One entry after the other -/

namespace Resolver

variable {config front back : Config} {r : Resolver}

/-- What the resolver has under a name: the text that the name denotes, and the template of
that text. -/
structure Has (config : Config) (r : Resolver) (n p : Text) (T : Template) : Prop where
  denotes : config.Denotes n p
  pattern : r.patterns.get? (.text n) = some p
  parse : Template.parse p = .ok T
  template : r.templates.get? (.text n) = some T

/-- The entries in front are loaded. -/
structure HasLoaded (config front : Config) (r : Resolver) : Prop where
  config_eq : r.config = config
  sound : config.IsSound r.patterns
  keys_eq : r.templates.keys = front.keys
  has : ∀ n, .text n ∈ front.keys → ∃ p T, Has config r n p T

/-- Loading an entry takes three steps: its pattern is found or resolved, the pattern is parsed, and
both results are kept. -/
theorem add_eq (r : Resolver) (k v : Value) :
    r.add (k, v) = (match r.patterns.get? k with
        | some p => .ok (p, r.patterns)
        | none => r.config.resolve [] r.patterns k v) >>= fun x =>
      parsePattern k x.1 >>= fun T => .ok ⟨r.config, x.2, r.templates.put k T⟩ := by
  unfold add
  cases r.patterns.get? k with
  | some p => rfl
  | none => rfl

/-- The pattern of an entry is finished already, or it is resolved. -/
theorem pattern_ends {n : Text} {v : Value} (hget : config.get? (.text n) = some v)
    {patterns : Patterns} (hsound : config.IsSound patterns) :
    Ends (fun x => config.Denotes n x.1 ∧ config.Extends patterns x.2 ∧
        x.2.get? (.text n) = some x.1) config.Refuses
      (match patterns.get? (.text n) with
        | some p => .ok (p, patterns)
        | none => config.resolve [] patterns (.text n) v) := by
  -- a pattern that is finished is that of the name, by what is known of all of them
  split
  · next p hp => exact ⟨hsound n p hp, .refl hsound, hp⟩
  · exact (Config.resolve_ends hget hsound).imp (fun _ hx => hx) .unresolved

/-- What a name denotes is parsed, or refused. -/
theorem parsePattern_ends {n p : Text} (hp : config.Denotes n p) :
    Ends (fun T => Template.parse p = .ok T) config.Refuses (parsePattern (.text n) p) := by
  unfold parsePattern
  split
  · next T hT => exact hT
  · next digits hparse => exact .oversized n p digits hp hparse
  · next e hlength hparse => exact .unparsable n p e hp hparse hlength

/-- A name with its template joins those that are loaded. -/
theorem HasLoaded.put (h : HasLoaded config front r)
    (htexts : ∀ k ∈ front.keys, ∃ n, k = .text n) {n p : Text} {v : Value} {T : Template}
    {patterns : Patterns} (hn : .text n ∉ front.keys) (hp : config.Denotes n p)
    (hextends : config.Extends r.patterns patterns) (hkept : patterns.get? (.text n) = some p)
    (hT : Template.parse p = .ok T) :
    HasLoaded config (front ++ [(.text n, v)])
      ⟨config, patterns, r.templates.put (.text n) T⟩ := by
  have hput (m : Text) : (r.templates.put (.text n) T).get? (.text m) =
      if n = m then some T else r.templates.get? (.text m) := by
    simp only [Entries.get?_put, Value.text_beq_text, beq_iff_eq]
  refine ⟨rfl, hextends.sound, ?_, fun m hm => ?_⟩
  · rw [← h.keys_eq] at htexts hn
    rw [Entries.keys_put_of_notMem htexts T hn, h.keys_eq]
    simp [Entries.keys]
  · by_cases hmn : n = m
    · -- this name is new, and what it has was put in just now
      subst hmn
      exact ⟨p, T, hp, hkept, hT, by rw [hput, if_pos rfl]⟩
    · -- the other name is one in front, and what it has is left as it is
      have hfront : .text m ∈ front.keys := by
        simpa [Entries.keys, Ne.symm hmn] using hm
      obtain ⟨q, U, hq⟩ := h.has m hfront
      exact ⟨q, U, hq.denotes, hextends.keeps m q hq.pattern, hq.parse,
        by rw [hput, if_neg hmn, hq.template]⟩

/-- One entry is loaded behind those in front of it. -/
theorem add_ends (hnames : config.HasTextNames) {e : Value × Value}
    (hsplit : config = front ++ e :: back) (h : HasLoaded config front r) :
    Ends (HasLoaded config (front ++ [e])) config.Refuses (r.add e) := by
  obtain ⟨k, v⟩ := e
  -- the entry is one of the configuration, and the first under its name
  have hmem : (k, v) ∈ config := by
    rw [hsplit]
    exact List.mem_append_right _ List.mem_cons_self
  obtain ⟨n, rfl⟩ := hnames.exists_text k (List.mem_map_of_mem hmem)
  have hget := (Entries.get?_eq_some_iff hnames n v).mpr hmem
  have hkeys : config.keys = front.keys ++ .text n :: Entries.keys back := by
    rw [hsplit]
    simp [Entries.keys]
  -- the name stands in no entry in front, so that nothing is overwritten
  have hn : .text n ∉ front.keys := by
    have hnodup := hnames.nodup
    rw [hkeys, List.nodup_append] at hnodup
    exact fun hfront => hnodup.2.2 _ hfront _ List.mem_cons_self rfl
  have htexts : ∀ k ∈ front.keys, ∃ n, k = .text n := fun k hk =>
    hnames.exists_text k (by rw [hkeys]; exact List.mem_append_left _ hk)
  rw [add_eq, h.config_eq]
  refine (pattern_ends hget h.sound).bind ?_
  rintro ⟨p, patterns⟩ ⟨hp, hextends, hkept⟩
  refine (parsePattern_ends hp).bind fun T hT => ?_
  exact h.put htexts hn hp hextends hkept hT

/-- Loading ends with all names loaded, or in an error that reports a fault. -/
theorem load_ends (hnames : config.HasTextNames) :
    Ends (HasLoaded config config) config.Refuses (load config) := by
  have hstart : HasLoaded config [] ⟨config, [], []⟩ :=
    ⟨rfl, fun _ _ hp => (nomatch hp), rfl, fun _ hn => absurd hn List.not_mem_nil⟩
  exact Ends.foldlM (fun _ _ _ _ hsplit h => add_ends hnames hsplit h) hstart

/-! ## Which configurations are loaded -/

/-- Where every name denotes a text that is parsed, whatever a name denotes is parsed. -/
theorem exists_parse_of_denotes (hnames : config.HasTextNames)
    (hall : ∀ n, .text n ∈ config.keys → ∃ p T, config.Denotes n p ∧ Template.parse p = .ok T)
    {n p : Text} (hp : config.Denotes n p) : ∃ T, Template.parse p = .ok T := by
  obtain ⟨q, T, hq, hT⟩ := hall n (hp.mem_keys hnames)
  exact ⟨T, hp.unique hq ▸ hT⟩

/-- Loading succeeds just if every name denotes a text that is parsed. -/
theorem exists_load_eq_ok_iff (hnames : config.HasTextNames) :
    (∃ r, load config = .ok r) ↔
      ∀ n, .text n ∈ config.keys → ∃ p T, config.Denotes n p ∧ Template.parse p = .ok T := by
  constructor
  · intro ⟨r, hload⟩ n hn
    obtain ⟨p, T, hhas⟩ := ((load_ends hnames).ok hload).has n hn
    exact ⟨p, T, hhas.denotes, hhas.parse⟩
  · intro hall
    have hresolvable : config.IsResolvable := (Config.isResolvable_iff hnames).mpr fun n hn => by
      obtain ⟨p, T, hp, hT⟩ := hall n hn
      exact ⟨p, hp⟩
    -- an error would name a fault, and there is none
    cases hload : load config with
    | ok r => exact ⟨r, rfl⟩
    | error f =>
      cases (load_ends hnames).error hload with
      | unresolved f h => exact absurd h (hresolvable.not_explains hnames f)
      | unparsable n p e hp hparse hlength =>
        obtain ⟨T, hT⟩ := exists_parse_of_denotes hnames hall hp
        exact absurd hT (ne_ok_of_eq_error hparse)
      | oversized n p digits hp hparse =>
        obtain ⟨T, hT⟩ := exists_parse_of_denotes hnames hall hp
        exact absurd hT (ne_ok_of_eq_error hparse)

/-- That is so just if all references can be followed, and what the names denote is parsed. -/
theorem exists_load_eq_ok_iff_isResolvable (hnames : config.HasTextNames) :
    (∃ r, load config = .ok r) ↔ config.IsResolvable ∧
      ∀ n p, config.Denotes n p → ∃ T, Template.parse p = .ok T := by
  rw [exists_load_eq_ok_iff hnames, Config.isResolvable_iff hnames]
  constructor
  · intro hall
    exact ⟨fun n hn => (hall n hn).imp fun p ⟨T, hp, _⟩ => hp,
      fun n p hp => exists_parse_of_denotes hnames hall hp⟩
  · intro ⟨hdenotes, hparses⟩ n hn
    obtain ⟨p, hp⟩ := hdenotes n hn
    obtain ⟨T, hT⟩ := hparses n p hp
    exact ⟨p, T, hp, hT⟩

/-- The kind of an error tells what is wrong, as far as lengths can be read and templates that are
no texts can be shown. -/
theorem kind_of_refuses (hnames : config.HasTextNames)
    (hlengths : ∀ n p, config.Denotes n p → p.HasReadableLengths)
    (hshow : ∀ e ∈ config, ∃ shown, e.2.inspect = .ok shown) {f : Fault}
    (h : config.Refuses f) :
    (f.kind = .missingTemplate ∧ ∃ m n, config.Refers m n ∧ .text n ∉ config.keys) ∨
      (f.kind = .templateValidation ∧ ∃ n, Relation.TransGen config.Refers n n) ∨
      (f.kind = .config ∧
        ((∃ e ∈ config, ∀ t, e.2 ≠ .text t) ∨
          ∃ n p, config.Denotes n p ∧ ∀ T, Template.parse p ≠ .ok T)) := by
  have hmem {n : Text} {v : Value} (h : config.get? (.text n) = some v) : (.text n, v) ∈ config :=
    (Entries.get?_eq_some_iff hnames n v).mp h
  cases h with
  | unresolved f h =>
    cases h with
    | unknown m n href hnone =>
      exact .inl ⟨rfl, m, n, href, (Entries.get?_eq_none_iff hnames.exists_text n).mp hnone⟩
    | circle names n hchain hn =>
      exact .inr (.inl ⟨rfl, n, Config.transGen_of_isChain hchain hn⟩)
    | notText n shown v hv hno hshown =>
      exact .inr (.inr ⟨rfl, .inl ⟨_, hmem hv, hno⟩⟩)
    | notShown n v f hv hno hfail =>
      -- by assumption every value can be shown, so that this error cannot arise
      obtain ⟨shown, hshown⟩ := hshow _ (hmem hv)
      exact absurd hshown (ne_ok_of_eq_error hfail)
  | unparsable n p e hp hparse hlength =>
    -- the text that is put together is no template
    exact .inr (.inr ⟨rfl, .inr ⟨n, p, hp, fun T => ne_ok_of_eq_error hparse⟩⟩)
  | oversized n p digits hp hparse =>
    exact absurd hparse (Template.parse_ne_oversized (hlengths n p hp) digits)

/-- The templates of a configuration are what stands under their key. -/
theorem ofValue_eq_load {entries : List (Value × Value)}
    (hget : Entries.get? (.text templatesKey) entries = some (.map config)) :
    ofValue (.map entries) = load config := by
  simp only [ofValue, hget]

/-- Loading succeeds just if every template is a text, every reference leads to a configured name
and none back to where it comes from, and every text is parsed when its references are replaced.
Otherwise the kind of the error tells which of them does not hold, as far as templates that are
no texts can be shown. -/
theorem ofValue_succeeds_iff {entries : List (Value × Value)}
    (hget : Entries.get? (.text templatesKey) entries = some (.map config))
    (hnames : config.HasTextNames)
    (hlengths : ∀ n p, config.Denotes n p → p.HasReadableLengths) :
    (config.IsResolvable → ∀ n, .text n ∈ config.keys → ∃ p, config.Denotes n p) ∧
    ((∃ r, ofValue (.map entries) = .ok r) ↔ config.IsResolvable ∧
      ∀ n p, config.Denotes n p → ∃ T, Value.parse (.text p) = .ok T) ∧
    ((∀ e ∈ config, ∃ shown, e.2.inspect = .ok shown) →
      ∀ f, ofValue (.map entries) = .error f →
        (f.kind = .missingTemplate ∧ ∃ m n, config.Refers m n ∧ .text n ∉ config.keys) ∨
        (f.kind = .templateValidation ∧ ∃ n, Relation.TransGen config.Refers n n) ∨
        (f.kind = .config ∧
          ((∃ e ∈ config, ∀ t, e.2 ≠ .text t) ∨
            ∃ n p, config.Denotes n p ∧ ∀ T, Value.parse (.text p) ≠ .ok T))) := by
  -- the templates stand under their key, so that loading is all that is done
  rw [ofValue_eq_load hget]
  simp only [Value.parse_text_eq_ok, ne_eq]
  refine ⟨fun h n hn => h.exists_denotes hnames hn, exists_load_eq_ok_iff_isResolvable hnames, ?_⟩
  intro hshow f hload
  exact kind_of_refuses hnames hlengths hshow ((load_ends hnames).error hload)

/-- A text that refers to two others, which both refer to a fourth one. -/
def diamond : Config :=
  [(.text "a".toText, .text "<b><c>".toText), (.text "b".toText, .text "/<d>".toText),
    (.text "c".toText, .text "?<d>".toText), (.text "d".toText, .text "{x}".toText)]

/-- The configuration of this example stands under the key of the templates. -/
theorem get?_diamond :
    Entries.get? (.text templatesKey) [(Value.text templatesKey, Value.map diamond)] =
      some (.map diamond) := rfl

/-- Its four names are different texts. -/
theorem hasTextNames_diamond : diamond.HasTextNames := by
  have hkeys : diamond.keys = (["a", "b", "c", "d"].map String.toText).map .text := rfl
  exact Entries.hasTextNames_of_keys_eq hkeys (by decide)

/-- The shared text stands in both places. -/
theorem denotes_diamond :
    diamond.Denotes "a".toText "/{x}?{x}".toText ∧ diamond.Denotes "b".toText "/{x}".toText ∧
      diamond.Denotes "c".toText "?{x}".toText ∧ diamond.Denotes "d".toText "{x}".toText := by
  have hd : diamond.Denotes "d".toText "{x}".toText :=
    ⟨_, [.plain (.scalar '{'), .plain (.scalar 'x'), .plain (.scalar '}')], rfl,
      (Text.divides_iff _ _).mpr (by decide +kernel),
      .plain _ _ _ (.plain _ _ _ (.plain _ _ _ .nil))⟩
  -- the shared text is filled in twice, once on either way
  have hb : diamond.Denotes "b".toText "/{x}".toText :=
    ⟨_, [.plain (.scalar '/'), .reference "d".toText], rfl,
      (Text.divides_iff _ _).mpr (by decide +kernel), .plain _ _ _ (hd.fills_cons .nil)⟩
  have hc : diamond.Denotes "c".toText "?{x}".toText :=
    ⟨_, [.plain (.scalar '?'), .reference "d".toText], rfl,
      (Text.divides_iff _ _).mpr (by decide +kernel), .plain _ _ _ (hd.fills_cons .nil)⟩
  have ha : diamond.Denotes "a".toText "/{x}?{x}".toText :=
    ⟨_, [.reference "b".toText, .reference "c".toText], rfl,
      (Text.divides_iff _ _).mpr (by decide +kernel), hb.fills_cons (hc.fills_cons .nil)⟩
  exact ⟨ha, hb, hc, hd⟩

/-- Every one of them denotes a short text that is parsed. -/
theorem parses_diamond {n : Text} (hn : .text n ∈ diamond.keys) :
    ∃ p T, diamond.Denotes n p ∧ p.length ≤ Text.digitLimit ∧ Template.parse p = .ok T := by
  have hparses (p : Text) (hp : diamond.Denotes n p) (hshort : p.length ≤ Text.digitLimit)
      (hsome : (Template.parse p).toOption.isSome = true) :
      ∃ p T, diamond.Denotes n p ∧ p.length ≤ Text.digitLimit ∧ Template.parse p = .ok T := by
    cases hparse : Template.parse p with
    | ok T => exact ⟨p, T, hp, hshort, hparse⟩
    | error e =>
      rw [hparse] at hsome
      cases hsome
  obtain ⟨ha, hb, hc, hd⟩ := denotes_diamond
  -- the names are gone through one by one
  simp only [diamond, Entries.keys, List.map_cons, List.map_nil, List.mem_cons, Value.text.injEq,
    List.not_mem_nil, or_false] at hn
  rcases hn with rfl | rfl | rfl | rfl
  · exact hparses _ ha (by decide) (by decide +kernel)
  · exact hparses _ hb (by decide) (by decide +kernel)
  · exact hparses _ hc (by decide) (by decide +kernel)
  · exact hparses _ hd (by decide) (by decide +kernel)

/-- A name that two texts refer to closes no circle. -/
theorem ofValue_succeeds_iff_diamond :
    ∃ r, ofValue (.map [(.text templatesKey, .map diamond)]) = .ok r := by
  have hresolvable : diamond.IsResolvable :=
    (Config.isResolvable_iff hasTextNames_diamond).mpr fun n hn =>
      (parses_diamond hn).imp fun p ⟨T, hp, _⟩ => hp
  have hdenotes {n p : Text} (hp : diamond.Denotes n p) :
      p.length ≤ Text.digitLimit ∧ ∃ T, Template.parse p = .ok T := by
    obtain ⟨q, T, hq, hshort, hparse⟩ := parses_diamond (hp.mem_keys hasTextNames_diamond)
    exact hp.unique hq ▸ ⟨hshort, T, hparse⟩
  -- short texts have no lengths with too many digits
  have hok := (ofValue_succeeds_iff get?_diamond hasTextNames_diamond fun n p hp =>
    p.hasReadableLengths_of_length (hdenotes hp).1).2.1
  refine hok.mpr ⟨hresolvable, fun n p hp => ?_⟩
  obtain ⟨T, hT⟩ := (hdenotes hp).2
  exact ⟨T, Value.parse_text_eq_ok.mpr hT⟩

/-! ## Templates that cannot be shown -/

/-- An integer that cannot be shown is refused as a template by an error that is not one of
configuration. -/
theorem load_of_oversized {n : Nat} (hlong : Nat.pow 10 Text.digitLimit ≤ n) (name : Text) :
    load [(.text name, .int n)] = .error (.misuse .oversized) := by
  -- showing the integer in the refusal is what fails
  have hresolve (config : Config) :
      config.resolve [] [] (.text name) (.int n) = .error (.misuse .oversized) := by
    rw [Config.resolve_text_of_not_text (by simp), Value.inspect_oversized hlong]
    rfl
  rw [load, List.foldlM_cons, add_eq]
  refine bind_eq_error.mpr (.inl (bind_eq_error.mpr (.inl ?_)))
  exact hresolve _

/-- A template is no text, but the error is not one of configuration. -/
theorem ofValue_oversized :
    ∃ config : Config, config = [(.text "a".toText, .int (Nat.pow 8 5000 - 1 : Nat))] ∧
      config.HasTextNames ∧ (∀ n p, ¬ config.Denotes n p) ∧ (∃ e ∈ config, ∀ t, e.2 ≠ .text t) ∧
      ∃ f, ofValue (.map [(.text templatesKey, .map config)]) = .error f ∧ f.kind = .value := by
  -- only that the integer is large matters, and not its digits
  have hpow : Nat.pow 10 Text.digitLimit ≤ Nat.pow 8 5000 - 1 := by decide +kernel
  obtain ⟨n, hn⟩ : ∃ n, n = Nat.pow 8 5000 - 1 := ⟨_, rfl⟩
  rw [← hn] at hpow ⊢
  refine ⟨_, rfl, ⟨by simp [Entries.keys], by simp [Entries.keys]⟩, ?_, ?_, .misuse .oversized, ?_,
    rfl⟩
  · rintro m p ⟨t, segments, hget, -⟩
    simp [Entries.get?] at hget
  · exact ⟨_, List.mem_cons_self, fun t ht => by cases ht⟩
  · rw [ofValue_eq_load rfl]
    exact load_of_oversized hpow _

end Resolver

end UriTemplate
