import UriTemplate.Template.Parser

/-!
# The grammar of URI templates

The language of templates as inductive predicates on texts, one for each rule, written
without reference to the parser.  A constructor stands for an alternative of its rule.

Every rule is then tied to the type of what it denotes: a text lies in the language of a
rule just if it is the canonical text of a value (`isVarSpec_iff`, `isExpression_iff`,
`isTemplate_iff`).  The two ends where this takes an argument are names, which the types
check by splitting at dots (`isName_iff_isVarname`), and prefix lengths, where digits
are read as a number and written again (`ofNat_decimal`).
-/

namespace UriTemplate

namespace Grammar

/-- Name: segments of name characters, with single dots between them. -/
inductive IsName : Text → Prop
  | segment (run : Text) (hne : run ≠ []) (h : ∀ x ∈ run, x.isVarchar = true) : IsName run
  | dotted (run t : Text) (hne : run ≠ []) (h : ∀ x ∈ run, x.isVarchar = true)
      (ht : IsName t) : IsName (run ++ .scalar '.' :: t)

/-- Prefix length: a digit other than zero, then any digits. -/
inductive IsLength : Text → Prop
  | digits (d : CodePoint) (ds : Text) (hd : d.isDigit = true) (hd0 : d ≠ .scalar '0')
      (hds : ∀ x ∈ ds, x.isDigit = true) : IsLength (d :: ds)

/-- Variable: a name, perhaps with a colon and a length or with an asterisk behind it. -/
inductive IsVarSpec : Text → Prop
  | plain (name : Text) (hname : IsName name) : IsVarSpec name
  | limit (name length : Text) (hname : IsName name) (hlength : IsLength length) :
      IsVarSpec (name ++ .scalar ':' :: length)
  | explode (name : Text) (hname : IsName name) : IsVarSpec (name ++ [.scalar '*'])

/-- Variables with commas between them, at least one. -/
inductive IsVarList : Text → Prop
  | single (v : Text) (hv : IsVarSpec v) : IsVarList v
  | cons (v vs : Text) (hv : IsVarSpec v) (hvs : IsVarList vs) :
      IsVarList (v ++ .scalar ',' :: vs)

/-- The characters that may stand behind an opening brace as an operator. -/
def operators : List Char := ['+', '#', '.', '/', ';', '?', '&', '=', ',', '!', '@', '|']

/-- Expression: variables in braces, perhaps with an operator in front of them. -/
inductive IsExpression : Text → Prop
  | simple (vs : Text) (hvs : IsVarList vs) : IsExpression (.scalar '{' :: vs ++ [.scalar '}'])
  | operator (o : Char) (vs : Text) (ho : o ∈ operators) (hvs : IsVarList vs) :
      IsExpression (.scalar '{' :: .scalar o :: vs ++ [.scalar '}'])

/-- Template: literals and expressions in any order. -/
inductive IsTemplate : Text → Prop
  | nil : IsTemplate []
  | literal (l t : Text) (hne : l ≠ []) (hl : ∀ x ∈ l, x.isLiteral = true)
      (ht : IsTemplate t) : IsTemplate (l ++ t)
  | expression (e t : Text) (he : IsExpression e) (ht : IsTemplate t) : IsTemplate (e ++ t)

/-! ## Names -/

/-- Cutting a text at its dots undoes putting its first segment in front. -/
private theorem isName_of_isVarname (n : Nat) (t : Text) (hn : t.length ≤ n)
    (h : t.isVarname = true) : IsName t := by
  induction n generalizing t with
  | zero =>
    -- the empty text has one segment, which is empty
    have ht : t = [] := List.length_eq_zero_iff.mp (by omega)
    subst ht
    exact absurd h (by decide)
  | succ n ih =>
    by_cases hdot : CodePoint.scalar '.' ∈ t
    · -- the first dot separates a segment from a shorter name
      obtain ⟨run, rest, rfl, hrun⟩ := List.eq_append_cons_of_mem hdot
      simp only [Text.isVarname, List.splitOn_append_cons_self_of_not_mem hrun, List.all_cons,
        Bool.and_eq_true] at h
      have hne : run ≠ [] := by
        rintro rfl
        simp at h
      refine .dotted run rest hne ?_ (ih rest ?_ h.2)
      · simpa using h.1.2
      · simp only [List.length_append, List.length_cons] at hn
        omega
    · -- without a dot the text is a single segment
      simp only [Text.isVarname, List.splitOn_eq_singleton hdot, List.all_cons, List.all_nil,
        Bool.and_true, Bool.and_eq_true] at h
      refine .segment t ?_ ?_
      · rintro rfl
        simp at h
      · simpa using h.2

/-- The grammar of names and the test on names agree. -/
theorem isName_iff_isVarname (t : Text) : IsName t ↔ t.isVarname = true := by
  constructor
  · intro h
    -- the test is made segment by segment, as the grammar builds a name
    induction h with
    | segment run hne h => exact Text.isVarname_segment hne h
    | dotted run t hne h ht ih => exact Text.isVarname_segment_dot hne h ih
  · -- the length of the text bounds the number of its segments
    exact isName_of_isVarname t.length t (Nat.le_refl _)

/-- A name begins with a name character. -/
theorem IsName.head (t : Text) (h : IsName t) :
    ∃ x rest, t = x :: rest ∧ x.isVarchar = true := by
  -- no segment is empty
  cases h with
  | segment run hne h =>
    obtain ⟨x, rest, rfl⟩ := List.exists_cons_of_ne_nil hne
    exact ⟨x, rest, rfl, h x List.mem_cons_self⟩
  | dotted run t hne h ht =>
    obtain ⟨x, rest, rfl⟩ := List.exists_cons_of_ne_nil hne
    exact ⟨x, rest ++ .scalar '.' :: t, rfl, h x List.mem_cons_self⟩

/-- A name consists of name characters and dots. -/
theorem IsName.forall_mem {t : Text} (h : IsName t) :
    ∀ x ∈ t, x.isVarchar = true ∨ x = .scalar '.' := by
  induction h with
  | segment run hne h => exact fun x hx => .inl (h x hx)
  | dotted run t hne h ht ih =>
    intro x hx
    rw [List.mem_append, List.mem_cons] at hx
    rcases hx with hx | hx | hx
    · exact .inl (h x hx)
    · exact .inr hx
    · exact ih x hx

/-- So does the name of every variable. -/
theorem forall_mem_name (n : VarName) :
    ∀ x ∈ n.text, x.isVarchar = true ∨ x = .scalar '.' :=
  ((isName_iff_isVarname n.text).mpr n.valid).forall_mem

/-! ## Prefix lengths

Reading a length and writing it again has to give the same digits.  The number of a run of
digits is built from the left, so the invariant of the loop is that the digits of the number
so far are those already read; the first digit makes it positive, which keeps it from
losing zeros. -/

/-- A decimal digit is a character between `0` and `9`. -/
theorem exists_char_of_isDigit (x : CodePoint) (h : x.isDigit = true) :
    ∃ c : Char, x = .scalar c ∧ '0'.toNat ≤ c.toNat ∧ c.toNat ≤ '9'.toNat := by
  simp only [CodePoint.isDigit, CodePoint.within, List.any_cons, List.any_nil, Bool.or_false,
    Bool.and_eq_true, decide_eq_true_eq] at h
  cases x with
  | scalar c => exact ⟨c, rfl, h⟩
  | surrogate n =>
    -- the surrogates lie far above the digits
    simp only [CodePoint.toNat] at h
    omega

/-- A character between `0` and `9` is a decimal digit. -/
theorem isDigit_scalar (c : Char) (h0 : '0'.toNat ≤ c.toNat) (h9 : c.toNat ≤ '9'.toNat) :
    (CodePoint.scalar c).isDigit = true := by
  simp only [CodePoint.isDigit, CodePoint.within, List.any_cons, List.any_nil, Bool.or_false,
    Bool.and_eq_true, decide_eq_true_eq]
  exact ⟨h0, h9⟩

/-- A run of decimal digits consists of characters between `0` and `9`. -/
private theorem exists_chars_of_isDigit (ds : Text) (h : ∀ x ∈ ds, x.isDigit = true) :
    ∃ cs : List Char, ds = cs.map .scalar ∧
      ∀ c ∈ cs, '0'.toNat ≤ c.toNat ∧ c.toNat ≤ '9'.toNat := by
  induction ds with
  | nil => exact ⟨[], rfl, by simp⟩
  | cons x ds ih =>
    obtain ⟨c, rfl, hc⟩ := exists_char_of_isDigit x (h x List.mem_cons_self)
    obtain ⟨cs, rfl, hcs⟩ := ih fun y hy => h y (List.mem_cons_of_mem _ hy)
    refine ⟨c :: cs, rfl, fun d hd => ?_⟩
    rcases List.mem_cons.mp hd with rfl | hd
    · exact hc
    · exact hcs d hd

/-- The value of a digit is below ten. -/
private theorem digit_sub_lt_ten (c : Char) (h9 : c.toNat ≤ '9'.toNat) :
    c.toNat - '0'.toNat < 10 := by
  have hzero : '0'.toNat = 48 := rfl
  have hnine : '9'.toNat = 57 := rfl
  omega

/-- A digit that is not zero comes after zero. -/
theorem zero_lt_of_ne (c : Char) (h0 : '0'.toNat ≤ c.toNat)
    (hne : CodePoint.scalar c ≠ .scalar '0') : '0'.toNat < c.toNat := by
  have h : c.toNat ≠ '0'.toNat := fun h => hne (congrArg _ (Char.toNat_inj.mp h))
  omega

/-- The digit of a digit's value is the digit itself. -/
private theorem digitChar_sub (c : Char) (h0 : '0'.toNat ≤ c.toNat)
    (h9 : c.toNat ≤ '9'.toNat) : (c.toNat - '0'.toNat).digitChar = c := by
  have hzero : '0'.toNat = 48 := rfl
  apply Char.toNat_inj.mp
  rw [Nat.toNat_digitChar_of_lt_ten (digit_sub_lt_ten c h9)]
  omega

/-- Reading digits onto a positive number appends them to its own digits. -/
private theorem toDigits_ofDigitChars (cs : List Char) (n : Nat) (hn : 0 < n)
    (hcs : ∀ c ∈ cs, '0'.toNat ≤ c.toNat ∧ c.toNat ≤ '9'.toNat) :
    Nat.toDigits 10 (Nat.ofDigitChars 10 cs n) = Nat.toDigits 10 n ++ cs := by
  -- the number grows with every digit, and so do its digits
  induction cs generalizing n with
  | nil => simp
  | cons c cs ih =>
    obtain ⟨h0, h9⟩ := hcs c List.mem_cons_self
    have hlt := digit_sub_lt_ten c h9
    rw [Nat.ofDigitChars_cons,
      ih _ (by omega) (fun d hd => hcs d (List.mem_cons_of_mem _ hd)),
      ← Nat.toDigits_append_toDigits (by decide) hn hlt, Nat.toDigits_of_lt_base hlt,
      digitChar_sub c h0 h9, List.append_assoc, List.singleton_append]

/-- A number has at most so many digits just if it is below that power of ten. -/
theorem length_ofNat_le_iff {n k : Nat} (hk : 0 < k) :
    (Text.ofNat n).length ≤ k ↔ n < Nat.pow 10 k := by
  rw [Text.ofNat, List.length_map, Nat.pow_eq]
  exact Nat.length_toDigits_le_iff (by decide) hk

/-- Reading a length as a number and writing the number gives the length back. -/
theorem ofNat_decimal (t : Text) (h : IsLength t) : Text.ofNat (Text.decimal t) = t := by
  obtain ⟨d, ds, hd, hd0, hds⟩ := h
  obtain ⟨c, rfl, h0, h9⟩ := exists_char_of_isDigit d hd
  obtain ⟨cs, rfl, hcs⟩ := exists_chars_of_isDigit ds hds
  -- the first digit is no zero, which keeps the number positive
  have hpos : 0 < c.toNat - '0'.toNat := Nat.sub_pos_of_lt (zero_lt_of_ne c h0 hd0)
  have hlt := digit_sub_lt_ten c h9
  -- the digits are characters, so that none is dropped when they are read
  have hchars : (CodePoint.scalar c :: cs.map .scalar).filterMap CodePoint.char? = c :: cs := by
    rw [← List.map_cons, List.filterMap_map]
    exact List.filterMap_some
  rw [Text.decimal, hchars, Nat.ofDigitChars_cons, Nat.mul_zero, Nat.zero_add, Text.ofNat,
    toDigits_ofDigitChars cs _ hpos hcs, Nat.toDigits_of_lt_base hlt, digitChar_sub c h0 h9]
  rfl

/-- A length consists of digits. -/
theorem IsLength.forall_isDigit {t : Text} (h : IsLength t) : ∀ x ∈ t, x.isDigit = true := by
  cases h with
  | digits d ds hd hd0 hds => exact List.forall_mem_cons.mpr ⟨hd, hds⟩

/-- A length is a positive number. -/
theorem decimal_pos_of_isLength (t : Text) (h : IsLength t) : 0 < Text.decimal t := by
  obtain ⟨d, ds, hd, hd0, hds⟩ := h
  obtain ⟨c, rfl, h0, h9⟩ := exists_char_of_isDigit d hd
  exact Text.decimal_pos (zero_lt_of_ne c h0 hd0)

/-- The digits of a positive number are a length. -/
theorem isLength_ofNat (n : Nat) (hn : 0 < n) : IsLength (Text.ofNat n) := by
  -- by the number without its last digit
  induction n using Nat.strongRecOn with
  | ind n ih =>
    have hdigit : ∀ k, k < 10 → (CodePoint.scalar k.digitChar).isDigit = true := by decide
    by_cases hlt : n < 10
    · -- a single digit, and not zero
      have hne : ∀ k, k < 10 → 0 < k → CodePoint.scalar k.digitChar ≠ .scalar '0' := by decide
      rw [Text.ofNat, Nat.toDigits_of_lt_base hlt]
      exact .digits _ [] (hdigit n hlt) (hne n hlt hn) (by simp)
    · -- one more digit behind a length
      have hmod : n % 10 < 10 := Nat.mod_lt n (by decide)
      have htail := ih (n / 10) (by omega) (by omega)
      rw [Text.ofNat, Nat.toDigits_of_base_le (by decide) (by omega), List.map_append]
      rw [Text.ofNat] at htail
      generalize (Nat.toDigits 10 (n / 10)).map CodePoint.scalar = t at htail
      obtain ⟨d, ds, hd, hd0, hds⟩ := htail
      refine .digits d (ds ++ _) hd hd0 fun x hx => ?_
      rcases List.mem_append.mp hx with hx | hx
      · exact hds x hx
      · rw [List.map_singleton, List.mem_singleton] at hx
        exact hx ▸ hdigit _ hmod

/-! ## The grammar and the canonical texts -/

/-- The texts of variables are the canonical ones. -/
theorem isVarSpec_iff (t : Text) : IsVarSpec t ↔ ∃ v : VarSpec, v.format = t := by
  constructor
  · intro h
    cases h with
    | plain name hname =>
      refine ⟨⟨⟨t, (isName_iff_isVarname t).mp hname⟩, none⟩, ?_⟩
      simp [VarSpec.format]
    | limit name length hname hlength =>
      -- the digits of a length are those of its number
      refine ⟨⟨⟨name, (isName_iff_isVarname name).mp hname⟩,
        some (.limit ⟨Text.decimal length, decimal_pos_of_isLength length hlength⟩)⟩, ?_⟩
      simp [VarSpec.format, Modifier.format, ofNat_decimal length hlength]
    | explode name hname =>
      exact ⟨⟨⟨name, (isName_iff_isVarname name).mp hname⟩, some .explode⟩, rfl⟩
  · -- a variable is one of the three forms by its modifier
    rintro ⟨⟨⟨name, hvalid⟩, modifier⟩, rfl⟩
    have hname := (isName_iff_isVarname name).mpr hvalid
    cases modifier with
    | none => simpa [VarSpec.format] using IsVarSpec.plain name hname
    | some m =>
      cases m with
      | limit length => exact .limit name _ hname (isLength_ofNat length.value length.positive)
      | explode => exact .explode name hname

/-- Joining with a separator puts it in front of every text but the first. -/
theorem intercalate_cons (sep t : Text) (ts : List Text) :
    sep.intercalate (t :: ts) = t ++ ts.flatMap (sep ++ ·) := by
  induction ts generalizing t with
  | nil => simp
  | cons s ts ih =>
    rw [List.intercalate_cons_cons, ih, List.flatMap_cons, List.append_assoc, List.append_assoc]

/-- The same for the comma, which is a single character. -/
theorem intercalate_comma (t : Text) (ts : List Text) :
    ",".toText.intercalate (t :: ts) = t ++ ts.flatMap (.scalar ',' :: ·) :=
  intercalate_cons ",".toText t ts

/-- The texts of lists of variables are the canonical ones. -/
theorem isVarList_iff (t : Text) :
    IsVarList t ↔
      ∃ (v : VarSpec) (vs : List VarSpec),
        ",".toText.intercalate ((v :: vs).map VarSpec.format) = t := by
  constructor
  · intro h
    -- each alternative of the grammar puts one variable in front
    induction h with
    | single v hv =>
      obtain ⟨v, rfl⟩ := (isVarSpec_iff v).mp hv
      exact ⟨v, [], List.intercalate_singleton⟩
    | cons v vs hv hvs ih =>
      obtain ⟨v, rfl⟩ := (isVarSpec_iff v).mp hv
      obtain ⟨w, vs, rfl⟩ := ih
      refine ⟨v, w :: vs, ?_⟩
      simp only [List.map_cons, intercalate_comma, List.flatMap_cons, List.cons_append]
  · rintro ⟨v, vs, rfl⟩
    -- by the variables behind the first one, each of which may become the first
    induction vs generalizing v with
    | nil =>
      rw [List.map_singleton, List.intercalate_singleton]
      exact .single v.format ((isVarSpec_iff v.format).mpr ⟨v, rfl⟩)
    | cons w vs ih =>
      have hlist := IsVarList.cons v.format _ ((isVarSpec_iff v.format).mpr ⟨v, rfl⟩) (ih w)
      simpa only [List.map_cons, intercalate_comma, List.flatMap_cons, List.cons_append]
        using hlist

/-- The symbols of the registered operators are those that the grammar allows. -/
private theorem registered_symbols :
    Operator.registered.map Operator.symbol = operators.map fun o => [.scalar o] := by decide

/-- A character is allowed as an operator just if it is the symbol of a registered one. -/
theorem mem_operators_iff (o : Char) :
    o ∈ operators ↔ ∃ r ∈ Operator.registered, r.symbol = [.scalar o] := by
  have hmem := List.mem_map (f := Operator.symbol) (l := Operator.registered)
    (b := [CodePoint.scalar o])
  -- the symbols of the registry are the characters of the grammar
  rw [registered_symbols] at hmem
  simpa using hmem

end Grammar

/-- The operator of an expression is a registered one, if it has an operator. -/
def Expression.IsRegistered (e : Expression) : Prop :=
  ∀ o ∈ e.operator, o ∈ Operator.registered

/-- The operators of a template are registered ones. -/
def Template.IsRegistered (t : Template) : Prop := ∀ e ∈ t.expressions, e.IsRegistered

/-- The prefix length of a variable, if it has one, has no more digits than can be read. -/
def VarSpec.IsReadable (v : VarSpec) : Prop :=
  ∀ n ∈ v.limit?, (Text.ofNat n).length ≤ Text.digitLimit

/-- The prefix lengths of a template have no more digits than can be read. -/
def Template.IsReadable (t : Template) : Prop :=
  ∀ e ∈ t.expressions, ∀ v ∈ e.specs, v.IsReadable

/-- The prefix lengths in a node have no more digits than can be read. -/
def Node.IsReadable : Node → Prop
  | .limit length => (Text.ofNat length.value).length ≤ Text.digitLimit
  | .spec v => v.IsReadable
  | .expression e => ∀ v ∈ e.specs, v.IsReadable
  | .template t => t.IsReadable
  | .explode | .literal _ => True

/-- The operator of a part is registered, and its prefix lengths can be read. -/
def Part.IsReadable : Part → Prop
  | .literal _ => True
  | .expression e => e.IsRegistered ∧ ∀ v ∈ e.specs, v.IsReadable

instance (o : Operator) : Decidable (o ∈ Operator.registered) :=
  decidable_of_iff (∃ r ∈ Operator.registered, r = o) exists_eq_right

instance (e : Expression) : Decidable e.IsRegistered :=
  inferInstanceAs (Decidable (∀ o ∈ e.operator, o ∈ Operator.registered))

instance (t : Template) : Decidable t.IsRegistered :=
  inferInstanceAs (Decidable (∀ e ∈ t.expressions, e.IsRegistered))

instance (v : VarSpec) : Decidable v.IsReadable :=
  inferInstanceAs (Decidable (∀ n ∈ v.limit?, (Text.ofNat n).length ≤ Text.digitLimit))

instance (t : Template) : Decidable t.IsReadable :=
  inferInstanceAs (Decidable (∀ e ∈ t.expressions, ∀ v ∈ e.specs, v.IsReadable))

instance (n : Node) : Decidable n.IsReadable :=
  match n with
  | .limit length => inferInstanceAs (Decidable ((Text.ofNat length.value).length ≤ _))
  | .spec v => inferInstanceAs (Decidable v.IsReadable)
  | .expression e => inferInstanceAs (Decidable (∀ v ∈ e.specs, v.IsReadable))
  | .template t => inferInstanceAs (Decidable t.IsReadable)
  | .explode | .literal _ => .isTrue trivial

/-- A template without parts has no expressions. -/
@[simp] theorem Template.expressions_nil : Template.expressions ⟨[]⟩ = [] := rfl

/-- A literal is passed over. -/
@[simp] theorem Template.expressions_literal (l : Literal) (ps : List Part) :
    Template.expressions ⟨.literal l :: ps⟩ = Template.expressions ⟨ps⟩ := rfl

/-- An expression is one of them. -/
@[simp] theorem Template.expressions_expression (e : Expression) (ps : List Part) :
    Template.expressions ⟨.expression e :: ps⟩ = e :: Template.expressions ⟨ps⟩ := rfl

/-! ## Lengths that can be written

What can be read can be written, and the other way round: both are a matter of the number of digits.
-/

/-- The prefix length of a variable can be written just if it can be read. -/
theorem VarSpec.isWritable_iff {v : VarSpec} : v.isWritable = true ↔ v.IsReadable := by
  unfold isWritable IsReadable
  cases v.limit? with
  | none => simp
  | some n => simp [Grammar.length_ofNat_le_iff (k := Text.digitLimit) (by decide)]

/-- So can the prefix lengths of an expression. -/
theorem Expression.isWritable_iff {e : Expression} :
    e.isWritable = true ↔ ∀ v ∈ e.specs, v.IsReadable := by
  simp only [isWritable, List.all_eq_true, VarSpec.isWritable_iff]

/-- So can those of a template, where literals have none. -/
theorem Template.isWritable_iff {t : Template} : t.isWritable = true ↔ t.IsReadable := by
  obtain ⟨ps⟩ := t
  simp only [isWritable, IsReadable, ← Expression.isWritable_iff]
  -- the one looks through the parts, the other one through the expressions among them
  induction ps with
  | nil => simp
  | cons p ps ih => cases p <;> simp [Part.isWritable, ih]

/-- So can those of any piece. -/
theorem Node.isWritable_iff {n : Node} : n.isWritable = true ↔ n.IsReadable := by
  -- only a modifier, a literal and what is made of variables can hold a length
  cases n with
  | limit length =>
    rw [isWritable, decide_eq_true_eq, IsReadable, Grammar.length_ofNat_le_iff (by decide)]
  | explode => exact iff_of_true rfl trivial
  | spec v => exact VarSpec.isWritable_iff
  | literal l => exact iff_of_true rfl trivial
  | expression e => exact Expression.isWritable_iff
  | template t => exact Template.isWritable_iff

/-- What is asked of a template is asked of each of its parts. -/
theorem Template.forall_parts_isReadable (ps : List Part) :
    (∀ p ∈ ps, p.IsReadable) ↔ Template.IsRegistered ⟨ps⟩ ∧ Template.IsReadable ⟨ps⟩ := by
  induction ps with
  | nil => simp [Template.IsRegistered, Template.IsReadable]
  | cons p ps ih =>
    -- literals add nothing to what is asked
    cases p with
    | literal l =>
      simpa [Part.IsReadable, Template.IsRegistered, Template.IsReadable] using ih
    | expression e =>
      rw [List.forall_mem_cons, ih]
      simp only [Part.IsReadable, Template.IsRegistered, Template.IsReadable,
        Template.expressions_expression, List.forall_mem_cons]
      exact and_and_and_comm

namespace Grammar

/-- A registered operator is written as a single character. -/
private theorem exists_symbol (r : Operator) (hr : r ∈ Operator.registered) :
    ∃ o : Char, r.symbol = [.scalar o] := by
  have hmem := List.mem_map_of_mem (f := Operator.symbol) hr
  rw [registered_symbols] at hmem
  obtain ⟨o, -, ho⟩ := List.mem_map.mp hmem
  exact ⟨o, ho.symm⟩

/-- The texts of expressions are the canonical ones of those with registered operators. -/
theorem isExpression_iff (t : Text) :
    IsExpression t ↔ ∃ e : Expression, e.IsRegistered ∧ e.format = t := by
  constructor
  · intro h
    cases h with
    | simple vs hvs =>
      obtain ⟨v, vs, rfl⟩ := (isVarList_iff vs).mp hvs
      refine ⟨⟨v :: vs, none, List.cons_ne_nil _ _⟩, ?_, ?_⟩
      · intro o ho
        cases ho
      · simp [Expression.format, VarSpec.formatAll]
    | operator o vs ho hvs =>
      -- the character is the symbol of a registered operator
      obtain ⟨v, vs, rfl⟩ := (isVarList_iff vs).mp hvs
      obtain ⟨r, hr, hsymbol⟩ := (mem_operators_iff o).mp ho
      refine ⟨⟨v :: vs, some r, List.cons_ne_nil _ _⟩, ?_, ?_⟩
      · intro o ho
        cases ho
        exact hr
      · simp [Expression.format, VarSpec.formatAll, hsymbol]
  · -- the operator, if there is one, is one character of the grammar
    rintro ⟨⟨specs, operator, hne⟩, hreg, rfl⟩
    obtain ⟨v, vs, rfl⟩ := List.exists_cons_of_ne_nil hne
    have hlist := (isVarList_iff _).mpr ⟨v, vs, rfl⟩
    cases operator with
    | none =>
      simpa [Expression.format, VarSpec.formatAll] using IsExpression.simple _ hlist
    | some r =>
      obtain ⟨o, ho⟩ := exists_symbol r (hreg r rfl)
      have hmem := (mem_operators_iff o).mpr ⟨r, hreg r rfl, ho⟩
      simpa [Expression.format, VarSpec.formatAll, ho] using IsExpression.operator o _ hmem hlist

/-- The texts of templates are the canonical ones of those with registered operators. -/
theorem isTemplate_iff (t : Text) :
    IsTemplate t ↔ ∃ T : Template, T.IsRegistered ∧ T.format = t := by
  constructor
  · intro h
    -- from the grammar to a template: each alternative puts one part in front
    induction h with
    | nil => exact ⟨⟨[]⟩, by simp [Template.IsRegistered], rfl⟩
    | literal l t hne hl ht ih =>
      obtain ⟨⟨ps⟩, hreg, rfl⟩ := ih
      refine ⟨⟨.literal ⟨l, hne, hl⟩ :: ps⟩, ?_, ?_⟩
      · simpa [Template.IsRegistered] using hreg
      · simp [Template.format, Part.format]
    | expression e t he ht ih =>
      obtain ⟨e, hereg, rfl⟩ := (isExpression_iff e).mp he
      obtain ⟨⟨ps⟩, hreg, rfl⟩ := ih
      refine ⟨⟨.expression e :: ps⟩, ?_, ?_⟩
      · simpa [Template.IsRegistered, hereg] using hreg
      · simp [Template.format, Part.format]
  · rintro ⟨⟨ps⟩, hreg, rfl⟩
    -- from a template to the grammar: each part is one alternative
    induction ps with
    | nil => exact .nil
    | cons p ps ih =>
      cases p with
      | literal l =>
        have htail := ih (by simpa [Template.IsRegistered] using hreg)
        exact .literal l.text _ l.nonempty l.allowed htail
      | expression e =>
        simp only [Template.IsRegistered, Template.expressions_expression,
          List.forall_mem_cons] at hreg
        have he := (isExpression_iff e.format).mpr ⟨e, hreg.1, rfl⟩
        exact .expression e.format _ he (ih hreg.2)

end Grammar

end UriTemplate
