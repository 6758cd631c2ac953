import UriTemplate.Proofs.Loading
import UriTemplate.Proofs.NameOrder

/-!
# Loaded patterns

A resolver that was loaded shows, under every configured name, the text that the name denotes and
the template of that text.  What a name denotes does not depend on the order of the entries, and
so neither does what is loaded (`ofValue_patterns`).

A pattern is free of angle brackets, since no text in the language of templates has one
(`Grammar.IsTemplate.isTemplateChar`).
-/

namespace UriTemplate

/-! ## The characters of templates -/

namespace Grammar

/-- The characters of texts in the language of templates: those of literals, the braces and the
vertical bar. -/
def isTemplateChar (c : CodePoint) : Bool := c.isLiteral || c.within [(0x7B, 0x7D)]

/-- Literals are written with such characters. -/
theorem isTemplateChar_of_isLiteral {c : CodePoint} (h : c.isLiteral = true) :
    isTemplateChar c = true := by
  rw [isTemplateChar, h, Bool.true_or]

/-- The characters of names are allowed in literals. -/
theorem isLiteral_of_isVarchar {c : CodePoint} (h : c.isVarchar = true) : c.isLiteral = true := by
  simp only [CodePoint.isVarchar, CodePoint.isLiteral, CodePoint.within, List.any_cons,
    List.any_nil, Bool.or_false, Bool.or_eq_true, Bool.and_eq_true, decide_eq_true_eq] at h ⊢
  omega

/-- So are digits. -/
theorem isLiteral_of_isDigit {c : CodePoint} (h : c.isDigit = true) : c.isLiteral = true := by
  simp only [CodePoint.isDigit, CodePoint.isLiteral, CodePoint.within, List.any_cons,
    List.any_nil, Bool.or_false, Bool.or_eq_true, Bool.and_eq_true, decide_eq_true_eq] at h ⊢
  omega

/-- A name is written with characters of literals. -/
theorem IsName.isLiteral {t : Text} (h : IsName t) : ∀ c ∈ t, c.isLiteral = true := by
  intro c hc
  rcases h.forall_mem c hc with h | rfl
  · exact isLiteral_of_isVarchar h
  · decide

/-- So is a variable with its modifier. -/
theorem IsVarSpec.isLiteral {t : Text} (h : IsVarSpec t) : ∀ c ∈ t, c.isLiteral = true := by
  cases h with
  | plain name hname => exact hname.isLiteral
  | limit name length hname hlength =>
    refine List.forall_mem_append.mpr ⟨hname.isLiteral, List.forall_mem_cons.mpr ⟨by decide, ?_⟩⟩
    exact fun c hc => isLiteral_of_isDigit (hlength.forall_isDigit c hc)
  | explode name hname =>
    exact List.forall_mem_append.mpr ⟨hname.isLiteral, List.forall_mem_singleton.mpr (by decide)⟩

/-- So is a list of variables, commas included. -/
theorem IsVarList.isLiteral {t : Text} (h : IsVarList t) : ∀ c ∈ t, c.isLiteral = true := by
  induction h with
  | single v hv => exact hv.isLiteral
  | cons v vs hv hvs ih =>
    exact List.forall_mem_append.mpr ⟨hv.isLiteral, List.forall_mem_cons.mpr ⟨by decide, ih⟩⟩

/-- The operators need the vertical bar, which no literal has. -/
theorem isTemplateChar_of_mem_operators {o : Char} (ho : o ∈ operators) :
    isTemplateChar (.scalar o) = true := by
  have hall : operators.all (fun o => isTemplateChar (.scalar o)) = true := by decide
  exact List.all_eq_true.mp hall o ho

/-- An expression is written with such characters: its braces, its operator and its variables. -/
theorem IsExpression.isTemplateChar {t : Text} (h : IsExpression t) :
    ∀ c ∈ t, isTemplateChar c = true := by
  -- both forms of an expression are something between braces
  have hbraces (vs : Text) (hvs : ∀ c ∈ vs, Grammar.isTemplateChar c = true) :
      ∀ c ∈ .scalar '{' :: vs ++ [.scalar '}'], Grammar.isTemplateChar c = true := by
    refine List.forall_mem_append.mpr ⟨List.forall_mem_cons.mpr ⟨by decide, hvs⟩, ?_⟩
    exact List.forall_mem_singleton.mpr (by decide)
  cases h with
  | simple vs hvs => exact hbraces vs fun c hc => isTemplateChar_of_isLiteral (hvs.isLiteral c hc)
  | operator o vs ho hvs =>
    refine hbraces (.scalar o :: vs) (List.forall_mem_cons.mpr ⟨?_, ?_⟩)
    · exact isTemplateChar_of_mem_operators ho
    · exact fun c hc => isTemplateChar_of_isLiteral (hvs.isLiteral c hc)

/-- Every text in the language of templates is written with such characters. -/
theorem IsTemplate.isTemplateChar {t : Text} (h : IsTemplate t) :
    ∀ c ∈ t, isTemplateChar c = true := by
  induction h with
  | nil => exact List.forall_mem_nil _
  | literal l t hne hl ht ih =>
    exact List.forall_mem_append.mpr ⟨fun c hc => isTemplateChar_of_isLiteral (hl c hc), ih⟩
  | expression e t he ht ih => exact List.forall_mem_append.mpr ⟨he.isTemplateChar, ih⟩

/-- Angle brackets are none of them. -/
theorem not_mem_of_isTemplate {t : Text} (h : IsTemplate t) {c : CodePoint}
    (hc : c = .scalar '<' ∨ c = .scalar '>') : c ∉ t := by
  intro hmem
  have hchar := h.isTemplateChar c hmem
  rcases hc with rfl | rfl
  · exact absurd hchar (by decide)
  · exact absurd hchar (by decide)

end Grammar

/-! ## The order of the entries -/

namespace Entries

variable {β : Type} {entries entries' : Entries Value β}

/-- That the names are different texts does not depend on the order of the entries. -/
theorem HasTextNames.perm (h : entries.HasTextNames) (hperm : entries'.Perm entries) :
    entries'.HasTextNames := by
  have hkeys : entries'.keys.Perm entries.keys := hperm.map _
  exact ⟨fun k hk => h.exists_text k (hkeys.mem_iff.mp hk), hkeys.nodup_iff.mpr h.nodup⟩

/-- What is found under a text does not depend on the order. -/
theorem get?_of_perm (h : entries.HasTextNames) (hperm : entries'.Perm entries) (n : Text) :
    entries'.get? (.text n) = entries.get? (.text n) := by
  ext v
  rw [get?_eq_some_iff (h.perm hperm), get?_eq_some_iff h, hperm.mem_iff]

/-- The names are made of texts. -/
theorem HasTextNames.exists_keys_eq (h : entries.HasTextNames) :
    ∃ ns : List Text, entries.keys = ns.map .text := by
  have hkeys := h.exists_text
  generalize entries.keys = ks at hkeys
  induction ks with
  | nil => exact ⟨[], rfl⟩
  | cons k ks ih =>
    obtain ⟨n, rfl⟩ := hkeys k List.mem_cons_self
    obtain ⟨ns, rfl⟩ := ih fun k hk => hkeys k (List.mem_cons_of_mem _ hk)
    exact ⟨n :: ns, rfl⟩

end Entries

/-! ## What a resolver shows -/

namespace Resolver

variable {config config' : Config} {r : Resolver} {n p : Text} {T : Template}

/-- The resolver gives the template that it has under the name. -/
theorem Has.getTemplate (h : Has config r n p T) : r.getTemplate (.text n) = .ok T := by
  unfold Resolver.getTemplate
  rw [h.template]
  rfl

/-- It shows the pattern that it has under the name. -/
theorem Has.pattern_eq (h : Has config r n p T) : r.pattern (.text n) = .ok p := by
  unfold Resolver.pattern
  rw [h.getTemplate, h.pattern]
  rfl

/-- A name has one pattern and one template, however it was loaded. -/
theorem Has.unique {r' : Resolver} {q : Text} {U : Template} (h : Has config r n p T)
    (h' : Has config r' n q U) : p = q ∧ T = U := by
  obtain rfl := h.denotes.unique h'.denotes
  have hparse := h.parse
  rw [h'.parse] at hparse
  exact ⟨rfl, (Except.ok.inj hparse).symm⟩

/-- The same entries in another order mean the same. -/
theorem Has.of_get?_eq (h : Has config r n p T)
    (hget : ∀ m, config.get? (.text m) = config'.get? (.text m)) : Has config' r n p T :=
  ⟨Config.denotes_congr hget h.denotes, h.pattern, h.parse, h.template⟩

/-- A configuration is loaded in any order of its entries, and every name has the same pattern
and the same template. -/
theorem load_of_perm (hnames : config.HasTextNames) (hload : load config = .ok r)
    (hperm : config'.Perm config) :
    ∃ r', load config' = .ok r' ∧ ∀ n, .text n ∈ config.keys →
      r'.pattern (.text n) = r.pattern (.text n) ∧
        r'.getTemplate (.text n) = r.getTemplate (.text n) := by
  have hnames' := hnames.perm hperm
  have hkeys (n : Text) : .text n ∈ config'.keys ↔ .text n ∈ config.keys := (hperm.map _).mem_iff
  have hget (n : Text) : config.get? (.text n) = config'.get? (.text n) :=
    (Entries.get?_of_perm hnames hperm n).symm
  have hloaded := (load_ends hnames).ok hload
  -- what loading needs to know of a name does not depend on the order
  have hall (n : Text) (hn : .text n ∈ config'.keys) :
      ∃ p T, config'.Denotes n p ∧ Template.parse p = .ok T := by
    obtain ⟨p, T, hhas⟩ := hloaded.has n ((hkeys n).mp hn)
    exact ⟨p, T, Config.denotes_congr hget hhas.denotes, hhas.parse⟩
  obtain ⟨r', hload'⟩ := (exists_load_eq_ok_iff hnames').mpr hall
  refine ⟨r', hload', fun n hn => ?_⟩
  -- what both resolvers have under the name is the same, since the name denotes one text
  obtain ⟨p, T, hhas⟩ := hloaded.has n hn
  obtain ⟨q, U, hhas'⟩ := ((load_ends hnames').ok hload').has n ((hkeys n).mpr hn)
  obtain ⟨rfl, rfl⟩ := (hhas.of_get?_eq hget).unique hhas'
  exact ⟨by rw [hhas.pattern_eq, hhas'.pattern_eq], by rw [hhas.getTemplate, hhas'.getTemplate]⟩

/-- A resolver that was loaded shows, for every configured name, the text that the name denotes,
which is free of angle brackets, and the template that this text is parsed to and that is written
as this text.  Its names are those of the configuration, in the same order, and they are listed in
increasing order.  The order of the configuration is of no importance for the rest. -/
theorem ofValue_patterns {entries : List (Value × Value)}
    (hget : Entries.get? (.text templatesKey) entries = some (.map config))
    (hnames : config.HasTextNames) (hload : ofValue (.map entries) = .ok r) :
    (∀ n, .text n ∈ config.keys → ∃ p T, (∀ q, config.Denotes n q ↔ q = p) ∧
      r.pattern (.text n) = .ok p ∧ .scalar '<' ∉ p ∧ .scalar '>' ∉ p ∧
      r.getTemplate (.text n) = .ok T ∧ Value.parse (.text p) = .ok T ∧ T.format = p) ∧
    r.templates.keys = config.keys ∧
    (∃ ns : List Text, r.names = .ok (ns.map .text) ∧ (ns.map .text).Perm config.keys ∧
      ns.Pairwise fun s t => s.le t = true) ∧
    (∀ (entries' : List (Value × Value)) (config' : Config),
      Entries.get? (.text templatesKey) entries' = some (.map config') → config'.Perm config →
        ∃ r', ofValue (.map entries') = .ok r' ∧ ∀ n, .text n ∈ config.keys →
          r'.pattern (.text n) = r.pattern (.text n) ∧
            r'.getTemplate (.text n) = r.getTemplate (.text n)) := by
  rw [ofValue_eq_load hget] at hload
  have hloaded := (load_ends hnames).ok hload
  refine ⟨fun n hn => ?_, hloaded.keys_eq, ?_, fun entries' config' hget' hperm => ?_⟩
  · obtain ⟨p, T, hhas⟩ := hloaded.has n hn
    have hdenotes (q : Text) : config.Denotes n q ↔ q = p :=
      ⟨fun hq => hq.unique hhas.denotes, fun hq => hq ▸ hhas.denotes⟩
    -- the text that was parsed is in the language of templates, and no such text has angle
    -- brackets
    obtain ⟨hformat, hreg, -⟩ := Template.parse_eq_ok hhas.parse
    have htemplate : Grammar.IsTemplate p := (Grammar.isTemplate_iff p).mpr ⟨T, hreg, hformat⟩
    exact ⟨p, T, hdenotes, hhas.pattern_eq, Grammar.not_mem_of_isTemplate htemplate (.inl rfl),
      Grammar.not_mem_of_isTemplate htemplate (.inr rfl), hhas.getTemplate,
      Value.parse_text_eq_ok.mpr hhas.parse, hformat⟩
  · obtain ⟨ns, hns⟩ := hnames.exists_keys_eq
    -- the names are texts, and so they can be sorted
    obtain ⟨us, hsort, hperm, hsorted⟩ := Value.sort_texts ns
    refine ⟨us, ?_, ?_, hsorted⟩
    · rw [Resolver.names, hloaded.keys_eq, hns, hsort]
    · rw [hns]
      exact hperm.map _
  · rw [ofValue_eq_load hget']
    exact load_of_perm hnames hload hperm

/-- A text that is found in two places, in an order of the entries and in the opposite one. -/
theorem ofValue_patterns_diamond :
    ∃ r r', ofValue (.map [(.text templatesKey, .map diamond)]) = .ok r ∧
      ofValue (.map [(.text templatesKey, .map diamond.reverse)]) = .ok r' ∧
      r.pattern (.text "a".toText) = .ok "/{x}?{x}".toText ∧
      r'.pattern (.text "a".toText) = .ok "/{x}?{x}".toText := by
  have hmem : .text "a".toText ∈ diamond.keys := List.mem_cons_self
  obtain ⟨r, hload⟩ := (exists_load_eq_ok_iff hasTextNames_diamond).mpr fun n hn => by
    obtain ⟨p, T, hp, -, hT⟩ := parses_diamond hn
    exact ⟨p, T, hp, hT⟩
  rw [← ofValue_eq_load get?_diamond] at hload
  obtain ⟨hshows, -, -, horder⟩ := ofValue_patterns get?_diamond hasTextNames_diamond hload
  obtain ⟨r', hload', hsame⟩ :=
    horder [(.text templatesKey, .map diamond.reverse)] _ rfl diamond.reverse_perm
  obtain ⟨p, T, hdenotes, hpattern, -⟩ := hshows "a".toText hmem
  have hp := (hdenotes _).mp denotes_diamond.1
  rw [← hp] at hpattern
  exact ⟨r, r', hload, hload', hpattern, by rw [(hsame _ hmem).1, hpattern]⟩

end Resolver

end UriTemplate
