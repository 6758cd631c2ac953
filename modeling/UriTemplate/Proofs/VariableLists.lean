import UriTemplate.Proofs.ReadBack
import UriTemplate.Proofs.Variables

/-!
# Splitting a variable list

An expression whose operator puts the same text before its first value as between two values
can be split between two of its variables: the expansions of the two halves stand behind one
another (`Context.expandVariables_append`).  The operator of a query puts a question mark
before the first value only, and the expansion goes on with the operator that continues it
(`Operator.Continues`), if there is a value in front of the split.

The split expression fails just if one of the halves does, and with the error of that half.
Where both halves fail, it can be with either error, as all prefix lengths are looked at before
any value.
-/

namespace UriTemplate

variable {β : Type}

/-! ## Operators -/

namespace Operator

/-- An operator continues another one if it puts before its first value what the other one puts
between two values, and otherwise writes as the other one does. -/
structure Continues (o' o : Operator) : Prop where
  first_eq : o'.first = o.separator
  separator_eq : o'.separator = o.separator
  named_eq : o'.named = o.named
  ifEmpty_eq : o'.ifEmpty = o.ifEmpty
  allowReserved_eq : o'.allowReserved = o.allowReserved

variable {o o' : Operator}

/-- A single variable is written alike. -/
theorem Continues.expand?_eq (h : o'.Continues o) (look : Text → Binding β) (v : VarSpec) :
    v.expand? look o' = v.expand? look o := by
  -- the symbol, the tier and the first text play no part
  obtain ⟨-, hseparator, hnamed, hifEmpty, hallowReserved⟩ := h
  obtain ⟨_, _, _, separator, named, ifEmpty, allowReserved⟩ := o
  obtain ⟨_, _, _, separator', named', ifEmpty', allowReserved'⟩ := o'
  cases hseparator
  cases hnamed
  cases hifEmpty
  cases hallowReserved
  rfl

/-- Behind a value, the texts of more variables come as the continuing operator puts them. -/
theorem Continues.join_append (h : o'.Continues o) {ts us : List Text} (hts : ts ≠ []) :
    o.join (ts ++ us) = o.join ts ++ o'.join us := by
  unfold join
  rw [if_neg hts, if_neg (List.append_ne_nil_of_left_ne_nil hts us)]
  -- without more texts the continuing operator puts nothing
  by_cases hus : us = []
  · rw [if_pos hus, hus, List.append_nil, List.append_nil]
  · rw [if_neg hus, intercalate_append hts hus, h.first_eq, h.separator_eq]
    simp only [List.append_assoc]

/-- An operator that stands between two values as before the first one continues itself. -/
theorem continues_self (h : o.first = o.separator) : o.Continues o := ⟨h, rfl, rfl, rfl, rfl⟩

/-- Labels, path segments, path parameters and continued queries are continued by the same
operator. -/
theorem continues_of_symbol {symbol : Char} (hsymbol : symbol ∈ ['.', '/', ';', '&'])
    (ho : ofSymbol? [.scalar symbol] = some o) : o.Continues o :=
  continues_self (of_ofSymbol? (P := fun o => o.first = o.separator) (by decide) hsymbol ho)

/-- A query is continued by the ampersand. -/
theorem continues_query (ho : ofSymbol? "?".toText = some o)
    (ho' : ofSymbol? "&".toText = some o') : o'.Continues o := by
  cases ho
  cases ho'
  exact ⟨rfl, rfl, rfl, rfl, rfl⟩

/-- None of these operators is set aside. -/
theorem isReserved_of_symbol {symbol : Char} (hsymbol : symbol ∈ ['.', '/', ';', '&', '?'])
    (ho : ofSymbol? [.scalar symbol] = some o) : o.isReserved = false :=
  of_ofSymbol? (P := fun o => o.isReserved = false) (by decide) hsymbol ho

end Operator

/-! ## Expressions -/

namespace Expression

variable {look : Text → Binding β} {o o' : Operator} {vs ws : List VarSpec}

/-- The variables of an expression leave no text just if all of them are undefined. -/
theorem texts_eq_nil_iff (hshape : ∀ name, (look name).IsShaped) {texts : List (Option Text)}
    (h : vs.mapM (VarSpec.expand? look o) = .ok texts) :
    texts.filterMap id = [] ↔ ∀ v ∈ vs, (look v.name.text).IsUndefined := by
  constructor
  · intro hnil v hv
    have hshaped := hshape v.name.text
    -- a defined variable has a text, so there is none left
    cases hlook : look v.name.text with
    | unbound => trivial
    | foreign =>
      rw [hlook] at hshaped
      cases hshaped
    | item i =>
      cases hdef : i.isDefined with
      | false => exact hdef
      | true => exact absurd hnil (texts_ne_nil h hv hlook hdef)
  · intro hundef
    have hnone : vs.mapM (VarSpec.expand? look o) = .ok (vs.map fun _ => none) :=
      mapM_eq_ok_map fun v hv => VarSpec.expand?_of_isUndefined (hundef v hv)
    cases h.symm.trans hnone
    simp

/-- An expression with an operator and a list of variables. -/
def withOperator (o : Operator) (vs : List VarSpec) (hvs : vs ≠ []) : Expression :=
  ⟨vs, some o, hvs⟩

/-- If its operator is not set aside, only the prefix lengths are checked. -/
theorem check_withOperator (ho : o.isReserved = false) (hvs : vs ≠ []) :
    (withOperator o vs hvs).check = vs.forM VarSpec.checkLimit :=
  if_neg (Bool.eq_false_iff.mp ho)

/-- It expands if its prefix lengths are let through and its variables are, and then to their
texts. -/
theorem expand_withOperator_eq_ok (ho : o.isReserved = false) {hvs : vs ≠ []} {s : Text} :
    (withOperator o vs hvs).expand look = .ok s ↔
      vs.forM VarSpec.checkLimit = .ok () ∧
        ∃ texts, vs.mapM (VarSpec.expand? look o) = .ok texts ∧
          s = o.join (texts.filterMap id) := by
  rw [expand_eq_ok, check_withOperator ho]
  exact Iff.rfl

/-- It fails with the error of the lengths, or else with that of the variables. -/
theorem expand_withOperator_eq_error (ho : o.isReserved = false) {hvs : vs ≠ []}
    {err : ExpansionError} :
    (withOperator o vs hvs).expand look = .error err ↔
      vs.forM VarSpec.checkLimit = .error err ∨
        vs.forM VarSpec.checkLimit = .ok () ∧
          vs.mapM (VarSpec.expand? look o) = .error err := by
  rw [expand, check_withOperator ho, bind_check_eq_error]
  simp only [bind_eq_error, pure_ne_error, and_false, exists_false, or_false]
  exact Iff.rfl

/-- If the variables of two lists cannot be expanded together, those of one list cannot, with the
same error. -/
theorem expand_append_eq_error (ho : o.isReserved = false) {hvs : vs ≠ []} {hws : ws ≠ []}
    {hboth : vs ++ ws ≠ []} {err : ExpansionError}
    (h : (withOperator o (vs ++ ws) hboth).expand look = .error err) :
    (withOperator o vs hvs).expand look = .error err ∨
      (withOperator o ws hws).expand look = .error err := by
  rw [expand_withOperator_eq_error ho] at h
  rw [expand_withOperator_eq_error ho, expand_withOperator_eq_error ho]
  -- an error of the lengths comes from one list, and an error of the variables from one as well
  rcases h with hcheck | ⟨hcheck, htexts⟩
  · rcases forM_append_eq_error.mp hcheck with hfront | ⟨-, hback⟩
    · exact .inl (.inl hfront)
    · exact .inr (.inl hback)
  · -- the prefix lengths of both lists are fine
    rw [forM_append_eq_ok] at hcheck
    rcases mapM_append_eq_error.mp htexts with hfront | ⟨-, -, hback⟩
    · exact .inl (.inr ⟨hcheck.1, hfront⟩)
    · exact .inr (.inr ⟨hcheck.2, hback⟩)

/-- If the variables of two lists can be expanded together, those of each list can.  Where a
variable of the first list is defined, those of the second one come behind it as the continuing
operator puts them, and otherwise they stand alone. -/
theorem expand_append_eq_ok (hshape : ∀ name, (look name).IsShaped) (h : o'.Continues o)
    (ho : o.isReserved = false) (ho' : o'.isReserved = false) {hvs : vs ≠ []} {hws : ws ≠ []}
    {hboth : vs ++ ws ≠ []} {s : Text}
    (hs : (withOperator o (vs ++ ws) hboth).expand look = .ok s) :
    ∃ s₁ s₂ s₃, (withOperator o vs hvs).expand look = .ok s₁ ∧
      (withOperator o ws hws).expand look = .ok s₂ ∧
      (withOperator o' ws hws).expand look = .ok s₃ ∧
      ((∃ v ∈ vs, ¬ (look v.name.text).IsUndefined) → s = s₁ ++ s₃) ∧
      ((∀ v ∈ vs, (look v.name.text).IsUndefined) → s₁ = [] ∧ s = s₂) := by
  obtain ⟨hcheck, texts, htexts, rfl⟩ := (expand_withOperator_eq_ok ho).mp hs
  obtain ⟨ts, us, hts, hus, rfl⟩ := mapM_append_eq_ok.mp htexts
  rw [forM_append_eq_ok] at hcheck
  have hus' : ws.mapM (VarSpec.expand? look o') = .ok us := by
    rw [mapM_congr fun v _ => h.expand?_eq look v, hus]
  have hundef := texts_eq_nil_iff hshape hts
  -- the texts of both lists, and those of the second one as the continuing operator gives them
  refine ⟨_, _, _, (expand_withOperator_eq_ok ho).mpr ⟨hcheck.1, ts, hts, rfl⟩,
    (expand_withOperator_eq_ok ho).mpr ⟨hcheck.2, us, hus, rfl⟩,
    (expand_withOperator_eq_ok ho').mpr ⟨hcheck.2, us, hus', rfl⟩, ?_, ?_⟩
  · intro ⟨v, hv, hdef⟩
    rw [List.filterMap_append]
    exact h.join_append fun hnil => hdef (hundef.mp hnil v hv)
  · intro hall
    rw [List.filterMap_append, hundef.mpr hall]
    exact ⟨rfl, rfl⟩

end Expression

/-! ## Expansions -/

/-- The expansion of a single expression in a context. -/
def Context.expandVariables (c : Context) (o : Operator) (vs : List VarSpec) (hvs : vs ≠ []) :
    Except Fault Text :=
  Value.expandTemplate (.ofExpression (.withOperator o vs hvs)) c.toValue

namespace Context

variable {c : Context} {o o' : Operator} {vs ws : List VarSpec}

/-- It is expanded in a context as by what the context binds. -/
theorem expandVariables_eq_ok {hvs : vs ≠ []} {s : Text} :
    c.expandVariables o vs hvs = .ok s ↔
      (Expression.withOperator o vs hvs).expand c.look = .ok s := by
  rw [expandVariables, Value.expandTemplate_ofExpression, mapError_eq_ok]

/-- So it fails, and the error is one of expansion. -/
theorem expandVariables_eq_error {hvs : vs ≠ []} {f : Fault} :
    c.expandVariables o vs hvs = .error f ↔
      ∃ err, (Expression.withOperator o vs hvs).expand c.look = .error err ∧
        .expansion err = f := by
  rw [expandVariables, Value.expandTemplate_ofExpression, mapError_eq_error]

/-- Where the prefix lengths can be written, the error is one of expansion. -/
theorem kind_of_expandVariables (hshape : c.IsShaped) {hvs : vs ≠ []}
    (hread : ∀ v ∈ vs, v.IsReadable) {f : Fault} (h : c.expandVariables o vs hvs = .error f) :
    f.kind = .expansion := by
  obtain ⟨err, herr, rfl⟩ := expandVariables_eq_error.mp h
  exact (Expression.refusal_of_expand_eq_error (isShaped_look hshape) hread herr).kind_eq

/-- If the whole can be expanded, both halves can, and the second one also with the continuing
operator. -/
theorem expandVariables_append_eq_ok (hshape : c.IsShaped) (h : o'.Continues o)
    (ho : o.isReserved = false) (ho' : o'.isReserved = false) (hvs : vs ≠ []) (hws : ws ≠ [])
    {hboth : vs ++ ws ≠ []} {s : Text} (hs : c.expandVariables o (vs ++ ws) hboth = .ok s) :
    ∃ s₁ s₂ s₃, c.expandVariables o vs hvs = .ok s₁ ∧ c.expandVariables o ws hws = .ok s₂ ∧
      c.expandVariables o' ws hws = .ok s₃ ∧
      ((∃ v ∈ vs, ¬ (c.look v.name.text).IsUndefined) → s = s₁ ++ s₃) ∧
      ((∀ v ∈ vs, (c.look v.name.text).IsUndefined) → s₁ = [] ∧ s = s₂) := by
  simp only [expandVariables_eq_ok] at hs ⊢
  exact Expression.expand_append_eq_ok (isShaped_look hshape) h ho ho' hs

/-- If both halves together fail, one of them does, with the same error. -/
theorem expandVariables_append_eq_error (ho : o.isReserved = false) (hvs : vs ≠ [])
    (hws : ws ≠ []) {hboth : vs ++ ws ≠ []} {f : Fault}
    (h : c.expandVariables o (vs ++ ws) hboth = .error f) :
    c.expandVariables o vs hvs = .error f ∨ c.expandVariables o ws hws = .error f := by
  obtain ⟨err, herr, rfl⟩ := expandVariables_eq_error.mp h
  rcases Expression.expand_append_eq_error ho herr with hfront | hback
  · exact .inl (expandVariables_eq_error.mpr ⟨err, hfront, rfl⟩)
  · exact .inr (expandVariables_eq_error.mpr ⟨err, hback, rfl⟩)

/-- The results of the halves stand behind one another.  The second half of a query comes with
ampersands, unless the first half leaves nothing. -/
theorem exists_halves_of_expandVariables {symbol : Char} {ampersand : Operator}
    (hsymbol : symbol ∈ ['.', '/', ';', '&', '?'])
    (ho : Operator.ofSymbol? [.scalar symbol] = some o)
    (hampersand : Operator.ofSymbol? "&".toText = some ampersand) (hshape : c.IsShaped)
    (hvs : vs ≠ []) (hws : ws ≠ []) {hboth : vs ++ ws ≠ []} {s : Text}
    (hs : c.expandVariables o (vs ++ ws) hboth = .ok s) :
    ∃ s₁ s₂, c.expandVariables o vs hvs = .ok s₁ ∧ c.expandVariables o ws hws = .ok s₂ ∧
      (symbol ≠ '?' → s = s₁ ++ s₂) ∧
      (symbol = '?' → (∃ v ∈ vs, ¬ (c.look v.name.text).IsUndefined) →
        ∃ s₃, c.expandVariables ampersand ws hws = .ok s₃ ∧ s = s₁ ++ s₃) ∧
      (symbol = '?' → (∀ v ∈ vs, (c.look v.name.text).IsUndefined) → s = s₂) := by
  have hreserved := Operator.isReserved_of_symbol hsymbol ho
  -- the question mark is continued by another operator, and all others by themselves
  by_cases hquery : symbol = '?'
  · subst hquery
    have hreserved' : ampersand.isReserved = false := by
      cases hampersand
      rfl
    obtain ⟨s₁, s₂, s₃, h₁, h₂, h₃, hdef, hundef⟩ := expandVariables_append_eq_ok hshape
      (Operator.continues_query ho hampersand) hreserved hreserved' hvs hws hs
    exact ⟨s₁, s₂, h₁, h₂, fun hne => absurd rfl hne, fun _ hv => ⟨s₃, h₃, hdef hv⟩,
      fun _ hall => (hundef hall).2⟩
  · have hself : o.Continues o :=
      Operator.continues_of_symbol (by simpa [hquery] using hsymbol) ho
    obtain ⟨s₁, s₂, s₃, h₁, h₂, h₃, hdef, hundef⟩ := expandVariables_append_eq_ok hshape
      hself hreserved hreserved hvs hws hs
    cases h₂.symm.trans h₃
    refine ⟨s₁, s₂, h₁, h₂, fun _ => ?_, fun h => absurd h hquery, fun h => absurd h hquery⟩
    by_cases hall : ∀ v ∈ vs, (c.look v.name.text).IsUndefined
    · obtain ⟨rfl, rfl⟩ := hundef hall
      rfl
    · push Not at hall
      exact hdef hall

/-- An expression with one of these operators can be split between two variables.  It fails just
if one of the halves does, with an error of one of them, which is one of expansion if the prefix
lengths can be written.  Otherwise the halves stand behind one another, where the second half of a
query begins with an ampersand, if a variable of the first half is defined. -/
theorem expandVariables_append (symbol : Char) (hsymbol : symbol ∈ ['.', '/', ';', '&', '?'])
    (o ampersand : Operator) (ho : Operator.ofSymbol? [.scalar symbol] = some o)
    (hampersand : Operator.ofSymbol? "&".toText = some ampersand) (vs ws : List VarSpec)
    (hvs : vs ≠ []) (hws : ws ≠ []) (hboth : vs ++ ws ≠ []) (c : Context) (hshape : c.IsShaped) :
    ((∀ v ∈ vs ++ ws, v.IsReadable) →
        ((∃ f, c.expandVariables o (vs ++ ws) hboth = .error f ∧ f.kind = .expansion) ↔
          (∃ f, c.expandVariables o vs hvs = .error f ∧ f.kind = .expansion) ∨
            ∃ f, c.expandVariables o ws hws = .error f ∧ f.kind = .expansion)) ∧
      (∀ f, c.expandVariables o (vs ++ ws) hboth = .error f →
        c.expandVariables o vs hvs = .error f ∨ c.expandVariables o ws hws = .error f) ∧
      ∀ s, c.expandVariables o (vs ++ ws) hboth = .ok s →
        ∃ s₁ s₂, c.expandVariables o vs hvs = .ok s₁ ∧ c.expandVariables o ws hws = .ok s₂ ∧
          (symbol ≠ '?' → s = s₁ ++ s₂) ∧
          (symbol = '?' → (∃ v ∈ vs, ¬ (c.look v.name.text).IsUndefined) →
            ∃ s₃, c.expandVariables ampersand ws hws = .ok s₃ ∧ s = s₁ ++ s₃) ∧
          (symbol = '?' → (∀ v ∈ vs, (c.look v.name.text).IsUndefined) → s = s₂) := by
  have hreserved := Operator.isReserved_of_symbol hsymbol ho
  refine ⟨fun hread => ⟨?_, fun hhalf => ?_⟩,
    fun f hf => expandVariables_append_eq_error hreserved hvs hws hf,
    fun s hs => exists_halves_of_expandVariables hsymbol ho hampersand hshape hvs hws hs⟩
  · intro ⟨f, hf, hkind⟩
    rcases expandVariables_append_eq_error hreserved hvs hws hf with hf | hf
    · exact .inl ⟨f, hf, hkind⟩
    · exact .inr ⟨f, hf, hkind⟩
  · cases hrun : c.expandVariables o (vs ++ ws) hboth with
    | error f => exact ⟨f, rfl, kind_of_expandVariables hshape hread hrun⟩
    | ok s =>
      -- then both halves can be expanded
      obtain ⟨s₁, s₂, h₁, h₂, -⟩ := exists_halves_of_expandVariables hsymbol ho hampersand
        hshape hvs hws hrun
      rcases hhalf with ⟨f, hf, -⟩ | ⟨f, hf, -⟩
      · exact absurd h₁ (ne_ok_of_eq_error hf)
      · exact absurd h₂ (ne_ok_of_eq_error hf)

/-- A query whose first variable is undefined. -/
theorem expandVariables_append_query :
    ∃ (o ampersand : Operator) (e x l : VarSpec) (c : Context),
      (Expression.withOperator o [e, x, l] (by simp)).format = "{?e,x,l*}".toText ∧
        Operator.ofSymbol? [.scalar '?'] = some o ∧
        Operator.ofSymbol? "&".toText = some ampersand ∧ c.IsShaped ∧
        (c.look e.name.text).IsUndefined ∧ ¬ (c.look x.name.text).IsUndefined ∧
        (∀ v ∈ [e, x] ++ [l], v.IsReadable) ∧
        c.expandVariables o ([e, x] ++ [l]) (by simp) = .ok "?x=a%20b&l=c&l=d".toText ∧
        ∃ s₁ s₃, c.expandVariables o [e, x] (by simp) = .ok s₁ ∧
          c.expandVariables ampersand [l] (by simp) = .ok s₃ ∧
          "?x=a%20b&l=c&l=d".toText = s₁ ++ s₃ := by
  let o : Operator := .prefixing '?' '&' true "=".toText
  let ampersand : Operator := .prefixing '&' '&' true "=".toText
  let e : VarSpec := ⟨⟨"e".toText, by decide⟩, none⟩
  let x : VarSpec := ⟨⟨"x".toText, by decide⟩, none⟩
  let l : VarSpec := ⟨⟨"l".toText, by decide⟩, some .explode⟩
  let c : Context :=
    ⟨[(.text "e".toText, .list []), (.text "x".toText, .atom "a b".toText),
      (.text "l".toText, .list ["c".toText, "d".toText])]⟩
  have he : (c.look e.name.text).IsUndefined := rfl
  have hx : ¬ (c.look x.name.text).IsUndefined := nofun
  have hexpand : c.expandVariables o ([e, x] ++ [l]) (by simp) = .ok "?x=a%20b&l=c&l=d".toText := by
    decide +kernel
  have hread : ∀ v ∈ [e, x] ++ [l], v.IsReadable := by decide
  obtain ⟨-, -, hok⟩ := expandVariables_append '?' (by decide) o ampersand rfl rfl [e, x] [l]
    (by simp) (by simp) (by simp) c (by decide)
  obtain ⟨s₁, s₂, h₁, -, -, hdef, -⟩ := hok _ hexpand
  obtain ⟨s₃, h₃, hsplit⟩ := hdef rfl ⟨x, by simp, hx⟩
  exact ⟨o, ampersand, e, x, l, c, by decide, rfl, rfl, by decide, he, hx, hread, hexpand, s₁, s₃,
    h₁, h₃, hsplit⟩

/-- A prefix length that cannot be written in the first half: the second half fails with an error
of expansion, but the whole does not. -/
theorem expandVariables_append_oversized :
    ∃ (o : Operator) (x y : VarSpec),
      Operator.ofSymbol? [.scalar '/'] = some o ∧
        x.limit? = some (Nat.pow 10 Text.digitLimit) ∧ y.limit? = some 10000 ∧
        Context.empty.IsShaped ∧
        (∃ f, Context.empty.expandVariables o [y] (by simp) = .error f ∧ f.kind = .expansion) ∧
        (∃ f, Context.empty.expandVariables o [x] (by simp) = .error f ∧ f.kind = .value) ∧
        ∃ f, Context.empty.expandVariables o ([x] ++ [y]) (by simp) = .error f ∧
          f.kind = .value := by
  -- only that the length is large matters, and not its digits
  obtain ⟨n, hpow⟩ : ∃ n, n = Nat.pow 10 Text.digitLimit := ⟨_, rfl⟩
  have hlong : Nat.pow 10 Text.digitLimit ≤ n := Nat.le_of_eq hpow.symm
  have hlarge : 9999 < n := lt_of_oversized hlong
  let o : Operator := .prefixing '/' '/' false []
  let x : VarSpec := ⟨⟨"x".toText, by decide⟩, some (.limit ⟨n, by omega⟩)⟩
  let y : VarSpec := ⟨⟨"y".toText, by decide⟩, some (.limit ⟨10000, by decide⟩)⟩
  have hoversized : ∀ (ws : List VarSpec) (h : x :: ws ≠ []),
      Context.empty.expandVariables o (x :: ws) h = .error (.expansion .oversizedLength) := by
    intro ws h
    have hexpand : (Expression.withOperator o (x :: ws) h).expand Context.empty.look =
        .error .oversizedLength := Expression.expand_of_oversized rfl rfl rfl hlong
    exact expandVariables_eq_error.mpr ⟨_, hexpand, rfl⟩
  have hy : Context.empty.expandVariables o [y] (by simp) =
      .error (.expansion (.limitTooLarge "y".toText 10000)) := by decide +kernel
  exact ⟨o, x, y, rfl, congrArg some hpow, rfl, List.forall_mem_nil _, ⟨_, hy, rfl⟩,
    ⟨_, hoversized [] _, rfl⟩, _, hoversized [y] _, rfl⟩

end Context

end UriTemplate
