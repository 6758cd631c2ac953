import UriTemplate.Proofs.ErrorPlaces

/-!
# Prefix lengths with too many digits

Parsing a text ends in a template or in a syntax error, with one exception: where a prefix length
begins with more digits than can be read as a number, the digits are read before anything else is
looked at, and what fails is the reading (`Value.parse_ends`).

Which texts these are can be said by texts that parse (`Text.HasOversizedLength`).  The digits are
reached just if the text in front of the colon would be completed by a short length and a closing
brace; and the expression has to be closed somewhere, since otherwise it is refused at its
beginning.  That there is one such place at most is not needed: every place at which a text stops
being a template is the same one (`Stage.eq_of_stuck`).
-/

namespace UriTemplate

/-! ## Back from a stage -/

namespace Stage

variable {s s' : Stage} {x y : CodePoint} {t run run' rest rest' : Text}

/-- A stage within an expression is reached by a step within it, or by the opening brace. -/
theorem of_step?_eq_inside {j : Inside} (h : s.step? x = some (inside j)) :
    (s = outside ∧ j = .opened) ∨ ∃ i, s = inside i ∧ i.step? x = some j := by
  cases s with
  | outside =>
    simp only [step?] at h
    split at h
    · cases h
    · split at h
      · cases h
        exact .inl ⟨rfl, rfl⟩
      · cases h
  | inside i =>
    simp only [step?] at h
    split at h
    · split at h
      · cases h
      · cases h
    · obtain ⟨k, hk, hinside⟩ := Option.map_eq_some_iff.mp h
      cases hinside
      exact .inr ⟨i, rfl, hk⟩

/-- Behind a colon is what follows a name and the colon. -/
theorem of_step?_eq_colon (h : s.step? x = some (inside .colon)) :
    s = inside .name ∧ x = .scalar ':' := by
  obtain ⟨-, hj⟩ | ⟨i, rfl, hi⟩ := of_step?_eq_inside h
  · cases hj
  · cases i <;> grind [Inside.step?]

/-- A length begins behind a colon and grows by one digit after the other. -/
theorem of_step?_eq_length {n : Nat} (h : s.step? x = some (inside (.length n))) :
    (s = inside .colon ∧ n = 1 ∧ x.isDigit = true ∧ x ≠ .scalar '0') ∨
      ∃ m, s = inside (.length m) ∧ n = m + 1 ∧ x.isDigit = true := by
  obtain ⟨-, hj⟩ | ⟨i, rfl, hi⟩ := of_step?_eq_inside h
  · cases hj
  · cases i <;> grind [Inside.step?]

/-- The character that was read last led from one stage to the next. -/
theorem exists_step?_of_concat (h : outside.run? (t ++ [x]) = some s') :
    ∃ s, outside.run? t = some s ∧ s.step? x = some s' := by
  obtain ⟨s, hs, hx⟩ := exists_run?_of_append h
  rw [run?_cons] at hx
  obtain ⟨s'', hstep, hnil⟩ := Option.bind_eq_some_iff.mp hx
  cases hnil
  exact ⟨s, hs, hstep⟩

/-- What leads to a length ends in a colon and the digits of the length. -/
theorem exists_of_run?_eq_length {n : Nat} (h : outside.run? t = some (inside (.length n))) :
    ∃ u ds, t = u ++ .scalar ':' :: ds ∧ outside.run? u = some (inside .name) ∧
      Grammar.IsLength ds ∧ ds.length = n := by
  -- the induction is on the last character, which is the last digit of the length
  induction t using List.reverseRecOn generalizing n with
  | nil => cases h
  | append_singleton t x ih =>
    obtain ⟨s, hs, hstep⟩ := exists_step?_of_concat h
    obtain ⟨rfl, rfl, hx, hx0⟩ | ⟨m, rfl, rfl, hx⟩ := of_step?_eq_length hstep
    · -- this is the first digit, and the colon is the character in front of it
      obtain rfl | ⟨u, y, rfl⟩ := List.eq_nil_or_concat' t
      · cases hs
      · obtain ⟨s, hu, hcolon⟩ := exists_step?_of_concat hs
        obtain ⟨rfl, rfl⟩ := of_step?_eq_colon hcolon
        exact ⟨u, [x], by simp, hu, .digits x [] hx hx0 (List.forall_mem_nil _), rfl⟩
    · obtain ⟨u, ds, rfl, hu, ⟨d, ds, hd, hd0, hds⟩, rfl⟩ := ih hs
      refine ⟨u, d :: (ds ++ [x]), by simp, hu, .digits d _ hd hd0 ?_, by simp⟩
      exact List.forall_mem_append.mpr ⟨hds, List.forall_mem_singleton.mpr hx⟩

/-- There is one place at most at which a text gets stuck. -/
theorem eq_of_stuck (h : run ++ x :: rest = run' ++ y :: rest')
    (hrun : outside.run? run = some s) (hno : s.step? x = none)
    (hrun' : outside.run? run' = some s') (hno' : s'.step? y = none) : run = run' := by
  -- of two such places, the text up to the later one would not get anywhere
  obtain ⟨w, rfl, hw⟩ | ⟨w, rfl, hw⟩ := List.append_eq_append_iff.mp h
  · cases w with
    | nil => simp
    | cons z w =>
      cases hw
      rw [run?_eq_none hrun hno] at hrun'
      cases hrun'
  · cases w with
    | nil => simp
    | cons z w =>
      cases hw
      rw [run?_eq_none hrun' hno'] at hrun
      cases hrun

/-- A text leads to a name just if a short length and a closing brace make a template of it. -/
theorem run?_eq_name_iff (t : Text) :
    outside.run? t = some (inside .name) ↔
      ∃ T, Value.parse (.text (t ++ ":1\x7d".toText)) = .ok T := by
  simp only [Value.parse_text_eq_ok, Template.exists_parse_eq_ok_iff]
  constructor
  · intro h
    rw [run?_append h]
    rfl
  · intro h
    obtain ⟨s, hs, hrest⟩ := exists_run?_of_append h
    cases s with
    | outside => exact absurd hrest (by decide)
    | inside i =>
      -- within an expression only a name goes on with a colon
      obtain ⟨s', hcolon, -⟩ := Option.bind_eq_some_iff.mp hrest
      cases i with
      | name => exact hs
      | opened => cases hcolon
      | segment => cases hcolon
      | colon => cases hcolon
      | length n => cases hcolon
      | star => cases hcolon

end Stage

/-! ## The texts in question -/

/-- A prefix length is reached that has more digits than can be read, in an expression that is
closed somewhere. -/
def Text.HasOversizedLength (t : Text) : Prop :=
  ∃ s ds rest, t = s ++ .scalar ':' :: (ds ++ rest) ∧
    (∃ T, Value.parse (.text (s ++ ":1\x7d".toText)) = .ok T) ∧
    Grammar.IsLength ds ∧ Text.digitLimit < ds.length ∧ .scalar '}' ∈ rest

/-- There is one just if the text gets stuck at a digit behind as many as can be read. -/
theorem Text.hasOversizedLength_iff (t : Text) :
    t.HasOversizedLength ↔ ∃ run x rest, t = run ++ x :: rest ∧
      Stage.outside.run? run = some (.inside (.length Text.digitLimit)) ∧ x.isDigit = true ∧
      .scalar '}' ∈ rest := by
  constructor
  · rintro ⟨s, ds, rest, rfl, hname, hds, hlong, hclose⟩
    -- the digits are divided at the limit: those in front can be read, and the next one cannot
    have hlen : (ds.take Text.digitLimit).length = Text.digitLimit := by
      rw [List.length_take]
      omega
    have hdigits := Inside.run?_colon (Cursor.isLength_take hds (n := Text.digitLimit) (by decide))
      (Nat.le_of_eq hlen)
    rw [hlen] at hdigits
    refine ⟨s ++ .scalar ':' :: ds.take Text.digitLimit, ds[Text.digitLimit],
      ds.drop (Text.digitLimit + 1) ++ rest, ?_, ?_, hds.forall_isDigit _ (List.getElem_mem hlong),
      List.mem_append_right _ hclose⟩
    · have hsplit : ds ++ rest = ds.take Text.digitLimit ++
          ds[Text.digitLimit] :: (ds.drop (Text.digitLimit + 1) ++ rest) := by
        rw [← List.cons_append, ← List.drop_eq_getElem_cons hlong, ← List.append_assoc,
          List.take_append_drop]
      rw [hsplit]
      simp
    · rw [Stage.run?_append ((Stage.run?_eq_name_iff s).mpr hname), Stage.run?_cons]
      exact Stage.run?_inside hdigits
  · rintro ⟨run, x, rest, rfl, hrun, hx, hclose⟩
    obtain ⟨s, ds, rfl, hname, hds, hlen⟩ := Stage.exists_of_run?_eq_length hrun
    refine ⟨s, ds ++ [x], rest, by simp, (Stage.run?_eq_name_iff s).mp hname, ?_, ?_, hclose⟩
    · obtain ⟨d, ds, hd, hd0, hall⟩ := hds
      exact .digits d _ hd hd0 (List.forall_mem_append.mpr ⟨hall, List.forall_mem_singleton.mpr hx⟩)
    · rw [List.length_append, hlen]
      exact Nat.lt_succ_self _

namespace Template

variable {t : Text}

/-- Reading a length fails only where one has too many digits. -/
theorem hasOversizedLength_of_parse {digits : Nat}
    (h : parse t = .error (.oversizedLength digits)) : t.HasOversizedLength := by
  -- only a full length in front of another digit is blamed for its size
  cases halts_of_parse_eq_error h with
  | @stuck run c s x hread hrun hx hno hblames =>
    cases hblames with
    | oversizedLength _ hover hclose =>
      obtain ⟨rfl, y, hy, hdigit⟩ := hover
      obtain ⟨rest, hrest⟩ := List.head?_eq_some_iff.mp hy
      rw [hrest] at hclose
      refine (Text.hasOversizedLength_iff t).mpr ⟨run, y, rest, ?_, hrun, hdigit, ?_⟩
      · rw [← hrest]
        exact hread.rest
      · refine List.mem_of_ne_of_mem ?_ hclose
        rintro rfl
        exact absurd hdigit (by decide)
  | unclosed _ _ _ _ he => cases he

/-- Where one has, reading it is what fails. -/
theorem parse_of_hasOversizedLength (h : t.HasOversizedLength) :
    ∃ digits, parse t = .error (.oversizedLength digits) := by
  obtain ⟨run, x, rest, rfl, hrun, hx, hclose⟩ := (Text.hasOversizedLength_iff t).mp h
  have hno := Cursor.step?_length_of_isDigit hx
  cases hparse : parse (run ++ x :: rest) with
  | ok T =>
    have hout := (exists_parse_eq_ok_iff _).mp ⟨T, hparse⟩
    rw [Stage.run?_eq_none hrun hno] at hout
    cases hout
  | error e =>
    cases halts_of_parse_eq_error hparse with
    | @stuck run' c s y hread hrun' hy hno' hblames =>
      -- the text gets stuck at this place, and there nothing else is blamed
      obtain ⟨rest', hrest'⟩ := List.head?_eq_some_iff.mp hy
      have hsame : run ++ x :: rest = run' ++ y :: rest' := hread.rest.trans (by rw [hrest'])
      obtain rfl := Stage.eq_of_stuck hsame hrun hno hrun' hno'
      rw [hrun] at hrun'
      cases hrun'
      cases List.append_cancel_left hsame
      cases hblames with
      | unexpected expected hover => exact absurd ⟨rfl, x, hy, hx⟩ hover
      | oversizedLength digits hover hclose' => exact ⟨digits, rfl⟩
    | @unclosed run' rest' c hread hrun' hopen hunclosed he =>
      -- an expression that is never closed would open behind the place, where nothing is read
      have hsame : run ++ x :: rest = run' ++ .scalar '{' :: rest' :=
        hread.rest.trans (by rw [hopen])
      obtain ⟨w, rfl, hw⟩ | ⟨w, rfl, hw⟩ := List.append_eq_append_iff.mp hsame
      · cases w with
        | nil =>
          rw [List.append_nil, hrun] at hrun'
          cases hrun'
        | cons z w =>
          cases hw
          rw [Stage.run?_eq_none hrun hno] at hrun'
          cases hrun'
      · have hmem : .scalar '}' ∈ CodePoint.scalar '{' :: rest' := by
          rw [hw]
          exact List.mem_append_right _ (List.mem_cons_of_mem _ hclose)
        exact absurd (List.mem_of_ne_of_mem (by decide) hmem) hunclosed

end Template

/-! ## How parsing ends -/

/-- All errors of the parser but one are errors of syntax. -/
theorem Fault.kind_parse {e : ParseError} (h : ∀ digits, e ≠ .oversizedLength digits) :
    (Fault.parse e).kind = .templateSyntax := by
  cases e with
  | unexpected column found expected => rfl
  | unclosed column => rfl
  | oversizedLength digits => exact absurd rfl (h digits)

namespace Value

/-- Where no prefix length has too many digits, trying to parse a text raises no error. -/
theorem parse_ends_of_not {t : Text} (h : ¬ t.HasOversizedLength) :
    (∃ T, Value.parse (.text t) = .ok T ∧ orNone (Value.parse (.text t)) = .ok (some T)) ∨
      ∃ f, Value.parse (.text t) = .error f ∧ f.kind = .templateSyntax ∧
        orNone (Value.parse (.text t)) = .ok none := by
  -- every error other than that of a length is one of syntax, and these are caught
  cases hparse : Template.parse t with
  | ok T =>
    have hvalue := Value.parse_text_eq_ok.mpr hparse
    exact .inl ⟨T, hvalue, by rw [hvalue, orNone]⟩
  | error e =>
    have hvalue := Value.parse_text_eq_error hparse
    have hkind : (Fault.parse e).kind = .templateSyntax := Fault.kind_parse fun digits he =>
      h (Template.hasOversizedLength_of_parse (hparse.trans (by rw [he])))
    refine .inr ⟨.parse e, hvalue, hkind, ?_⟩
    rw [hvalue, orNone, isUnusable, hkind]
    rfl

/-- Where one has, the error is none of syntax, and it is raised. -/
theorem parse_ends_of_hasOversizedLength {t : Text} (h : t.HasOversizedLength) :
    ∃ f, Value.parse (.text t) = .error f ∧ f.kind = .value ∧
      orNone (Value.parse (.text t)) = .error f := by
  obtain ⟨digits, hparse⟩ := Template.parse_of_hasOversizedLength h
  have hvalue := Value.parse_text_eq_error hparse
  refine ⟨.parse (.oversizedLength digits), hvalue, rfl, ?_⟩
  rw [hvalue]
  rfl

/-- Parsing a text ends in a template or in a syntax error, and trying to parse it in the template
or in nothing, just if no prefix length is reached that has too many digits.  Where one is, the
error is none of syntax, and trying to parse the text raises it as well. -/
theorem parse_ends (t : Text) :
    (((∃ T, Value.parse (.text t) = .ok T ∧ orNone (Value.parse (.text t)) = .ok (some T)) ∨
        ∃ f, Value.parse (.text t) = .error f ∧ f.kind = .templateSyntax ∧
          orNone (Value.parse (.text t)) = .ok none) ↔ ¬ t.HasOversizedLength) ∧
      ((∃ f, Value.parse (.text t) = .error f ∧ f.kind = .value ∧
          orNone (Value.parse (.text t)) = .error f) ↔ t.HasOversizedLength) := by
  -- the two endings exclude each other
  refine ⟨⟨fun hends hover => ?_, parse_ends_of_not⟩, fun hends => ?_,
    parse_ends_of_hasOversizedLength⟩
  · obtain ⟨f, -, -, hf⟩ := parse_ends_of_hasOversizedLength hover
    obtain ⟨T, -, htry⟩ | ⟨f', -, -, htry⟩ := hends
    · exact absurd htry (ne_ok_of_eq_error hf)
    · exact absurd htry (ne_ok_of_eq_error hf)
  · obtain ⟨f, -, -, hf⟩ := hends
    refine Classical.byContradiction fun hno => ?_
    obtain ⟨T, -, htry⟩ | ⟨f', -, -, htry⟩ := parse_ends_of_not hno
    · exact absurd htry (ne_ok_of_eq_error hf)
    · exact absurd htry (ne_ok_of_eq_error hf)

/-- A variable with a prefix length of ones, and something behind it. -/
def onesLength (count : Nat) (rest : Text) : Text :=
  "\x7bx:".toText ++ (List.replicate count (.scalar '1') ++ rest)

/-- More ones than can be read are such a length, if the expression is closed. -/
theorem hasOversizedLength_onesLength {count : Nat} {rest : Text} (hlong : Text.digitLimit < count)
    (hclose : .scalar '}' ∈ rest) : (onesLength count rest).HasOversizedLength := by
  have hne : count ≠ 0 := by omega
  obtain ⟨n, rfl⟩ := Nat.exists_eq_succ_of_ne_zero hne
  have hlength : Grammar.IsLength (List.replicate (n + 1) (.scalar '1')) := by
    refine .digits (.scalar '1') (List.replicate n (.scalar '1')) (by decide) (by decide) ?_
    intro x hx
    rw [List.eq_of_mem_replicate hx]
    decide
  have hname : ∃ T, Value.parse (.text "\x7bx:1\x7d".toText) = .ok T :=
    ⟨⟨[.expression ⟨[⟨⟨"x".toText, by decide⟩, some (.limit ⟨1, by decide⟩)⟩], none, by decide⟩]⟩,
      by decide +kernel⟩
  exact ⟨"\x7bx".toText, _, rest, rfl, hname, hlength, by rw [List.length_replicate]; exact hlong,
    hclose⟩

/-- Nothing closes the expression where nothing stands behind the ones. -/
theorem brace_notMem_onesLength (count : Nat) : .scalar '}' ∉ onesLength count [] := by
  rw [onesLength, List.append_nil, List.mem_append, List.mem_replicate]
  rintro (hmem | ⟨-, heq⟩)
  · exact absurd hmem (by decide)
  · cases heq

/-- Without a closing brace the text is no template. -/
theorem parse_onesLength_ne_ok (count : Nat) (T : Template) :
    Value.parse (.text (onesLength count [])) ≠ .ok T := by
  intro hT
  have hout := (Template.exists_parse_eq_ok_iff _).mp ⟨T, Value.parse_text_eq_ok.mp hT⟩
  have hopen := List.not_mem_of_not_mem_cons (brace_notMem_onesLength count)
  exact Stage.run?_inside_ne_outside _ hopen .opened hout

/-- An expression that is never closed is refused for that, however many digits stand in it. -/
theorem parse_ends_unclosed :
    ∃ f, Value.parse (.text (onesLength 5000 [])) = .error f ∧ f.kind = .templateSyntax ∧
      orNone (Value.parse (.text (onesLength 5000 []))) = .ok none := by
  have hno : ¬ (onesLength 5000 []).HasOversizedLength := by
    rintro ⟨s, ds, rest, ht, -, -, -, hclose⟩
    apply brace_notMem_onesLength 5000
    rw [ht]
    simp [hclose]
  obtain ⟨T, hT, -⟩ | hends := (parse_ends _).1.mpr hno
  · exact absurd hT (parse_onesLength_ne_ok 5000 T)
  · exact hends

/-- The text is no template in any reading, but what is raised is no syntax error. -/
theorem parse_oversized :
    ∃ t f, t = onesLength 4301 "^\x7d".toText ∧
      ¬ ((∃ T, Value.parse (.text t) = .ok T) ∨
        ∃ f, Value.parse (.text t) = .error f ∧ f.kind = .templateSyntax) ∧
      (∀ r, orNone (Value.parse (.text t)) ≠ .ok r) ∧
      Value.parse (.text t) = .error f ∧ f.kind = .value := by
  have hover : (onesLength 4301 "^\x7d".toText).HasOversizedLength :=
    hasOversizedLength_onesLength (by decide) (by decide)
  obtain ⟨f, hf, hkind, htry⟩ := parse_ends_of_hasOversizedLength hover
  refine ⟨_, f, rfl, ?_, fun r => ne_ok_of_eq_error htry, hf, hkind⟩
  rintro (⟨T, hT⟩ | ⟨f', hf', hkind'⟩)
  · exact ne_ok_of_eq_error hf hT
  · rw [hf] at hf'
    cases hf'
    rw [hkind] at hkind'
    cases hkind'

end Value

end UriTemplate
