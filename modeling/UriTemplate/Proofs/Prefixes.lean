import UriTemplate.Proofs.EncodedValues
import UriTemplate.Proofs.Refusals
import UriTemplate.Proofs.SequentialExpansion

/-!
# Prefixes of values

A prefix length cuts the value first, and what is left of it is encoded.  A text can be encoded in
two pieces unless the cut goes through a triplet that passes (`encodeFrom_append`).  So the
expansion with a prefix is a beginning of the expansion without it, and what is missing at the end
is the rest of the value, encoded.

A cut through a triplet (`Text.CutsTriplet`) leaves a percent sign that begins no triplet any more.
It is encoded itself, and the expansion with the prefix ends in a triplet that the other one does
not have there (`isPrefix_iff_of_cutsTriplet`).
-/

namespace UriTemplate

/-! ## Cuts through triplets -/

namespace Text

/-- The cut between two texts goes through a triplet: behind `before`, the first text ends with the
percent sign of the triplet and those of its digits that stand in front of the cut. -/
structure CutsTriplet (front back before digits : Text) : Prop where
  front_eq : front = before ++ .scalar '%' :: digits
  triplet : BeginsTriplet (.scalar '%' :: digits ++ back)
  inside : digits.length < 2

variable {front back before digits : Text}

/-- What stands further in front does not matter. -/
theorem CutsTriplet.append_left (h : front.CutsTriplet back before digits) (more : Text) :
    (more ++ front).CutsTriplet back (more ++ before) digits :=
  ⟨by rw [h.front_eq, List.append_assoc], h.triplet, h.inside⟩

/-- A triplet at the beginning of a text ends in front of a cut, or is cut. -/
theorem BeginsTriplet.of_append {c : CodePoint} {rest : Text}
    (h : BeginsTriplet (c :: (rest ++ back))) :
    BeginsTriplet (c :: rest) ∨ CutsTriplet (c :: rest) back [] rest := by
  obtain ⟨a, b, post, heq, ha, hb⟩ := h
  obtain ⟨rfl, hrest⟩ := List.cons.inj heq
  have hcut (hshort : rest.length < 2) : CutsTriplet (.scalar '%' :: rest) back [] rest :=
    ⟨rfl, ⟨a, b, post, heq, ha, hb⟩, hshort⟩
  -- the triplet has its two digits in front of the cut, unless fewer characters stand there
  match rest with
  | [] => exact .inr (hcut (by decide))
  | [x] => exact .inr (hcut (by simp))
  | x :: y :: rest =>
    cases hrest
    exact .inl ⟨a, b, rest, rfl, ha, hb⟩

/-- The digits in front of the cut are hexadecimal. -/
theorem CutsTriplet.isHexDigit (h : front.CutsTriplet back before digits) :
    ∀ c ∈ digits, c.isHexDigit = true := by
  obtain ⟨-, ⟨a, b, rest, hdigits, ha, -⟩, hinside⟩ := h
  match digits, hinside with
  | [], _ => exact List.forall_mem_nil _
  | [x], _ =>
    cases hdigits
    exact List.forall_mem_singleton.mpr ha

/-- No cut in front of a percent sign goes through a triplet. -/
theorem not_cutsTriplet_percent (rest : Text) :
    ¬ front.CutsTriplet (.scalar '%' :: rest) before digits := by
  rintro ⟨-, ⟨a, b, rest', hdigits, ha, hb⟩, hinside⟩
  have hpercent : (CodePoint.scalar '%').isHexDigit = false := by decide
  match digits, hinside with
  | [], _ =>
    cases hdigits
    rw [hpercent] at ha
    cases ha
  | [c], _ =>
    cases hdigits
    rw [hpercent] at hb
    cases hb

/-- A surrogate in two texts is in one of them. -/
theorem hasSurrogate_append (t u : Text) :
    (t ++ u).HasSurrogate ↔ t.HasSurrogate ∨ u.HasSurrogate := by
  simp [HasSurrogate, or_and_right, exists_or]

end Text

/-! ## Encoding in pieces -/

namespace Percent

variable {allowReserved : Bool} {position : Nat} {t u s r : Text}

/-- The count of positions matters for errors alone. -/
theorem encodeFrom_eq_ok_of_eq_ok (h : encodeFrom allowReserved position t = .ok s)
    (position' : Nat) : encodeFrom allowReserved position' t = .ok s := by
  -- positions are only counted on the way, and shown where a surrogate stands
  fun_induction encodeFrom allowReserved position t generalizing s position' with
  | case1 => exact h
  | case2 position a b rest hpass ih =>
    rw [encodeFrom, if_pos hpass]
    exact h
  | case3 position a b rest hpass ih =>
    obtain ⟨s, hs, rfl⟩ := map_eq_ok.mp h
    rw [encodeFrom, if_neg hpass, ih hs (position' + 1)]
    rfl
  | case4 position c rest hno ih =>
    obtain ⟨s, hs, rfl⟩ := map_eq_ok.mp h
    rw [encodeFrom_scalar fun _ => Text.not_beginsTriplet hno, ih hs (position' + 1)]
    rfl
  | case5 => cases h

/-- Unless the cut goes through a triplet that passes, the encoded pieces of a text make up the
encoded text. -/
theorem encodeFrom_append
    (hcut : allowReserved = true → ∀ before digits, ¬ t.CutsTriplet u before digits)
    (ht : encodeFrom allowReserved position t = .ok s) (hu : encode allowReserved u = .ok r) :
    encodeFrom allowReserved position (t ++ u) = .ok (s ++ r) := by
  -- the induction is on the first text, and a cut behind a character is a cut behind the whole
  -- text
  fun_induction encodeFrom allowReserved position t generalizing s with
  | case1 position =>
    cases ht
    exact encodeFrom_eq_ok_of_eq_ok hu position
  | case2 position a b rest hpass ih =>
    obtain ⟨s, hs, rfl⟩ := map_eq_ok.mp ht
    have hrest := ih (fun hb before digits hd =>
      hcut hb _ digits (hd.append_left [.scalar '%', a, b])) hs
    rw [List.cons_append, List.cons_append, List.cons_append, encodeFrom, if_pos hpass, hrest]
    rfl
  | case3 position a b rest hpass ih =>
    obtain ⟨s, hs, rfl⟩ := map_eq_ok.mp ht
    have hrest := ih (fun hb before digits hd => hcut hb _ digits (hd.append_left [.scalar '%'])) hs
    have hno : allowReserved = true →
        ¬ Text.BeginsTriplet (.scalar '%' :: (a :: b :: rest ++ u)) := by
      intro hb htriplet
      rcases htriplet.of_append with htriplet | hd
      · exact hpass (by simp [hb, Text.beginsTriplet_iff.mp htriplet])
      · exact hcut hb _ _ hd
    rw [List.cons_append, encodeFrom_scalar hno, hrest]
    simp only [Except.map, List.append_assoc]
  | case4 position c rest hone ih =>
    obtain ⟨s, hs, rfl⟩ := map_eq_ok.mp ht
    have hrest := ih (fun hb before digits hd => hcut hb _ digits (hd.append_left [.scalar c])) hs
    have hno : allowReserved = true → ¬ Text.BeginsTriplet (.scalar c :: (rest ++ u)) := by
      intro hb htriplet
      rcases htriplet.of_append with htriplet | hd
      · exact Text.not_beginsTriplet hone htriplet
      · exact hcut hb _ _ hd
    rw [List.cons_append, encodeFrom_scalar hno, hrest]
    simp only [Except.map, List.append_assoc]
  | case5 => cases ht

/-! ## What a cut through a triplet leaves -/

/-- Hexadecimal digits are unreserved. -/
theorem isUnreserved_of_isHexDigit {c : CodePoint} (h : c.isHexDigit = true) :
    c.isUnreserved = true := by
  simp only [CodePoint.isHexDigit, CodePoint.isUnreserved, CodePoint.within, List.any_cons,
    List.any_nil, Bool.or_false, Bool.or_eq_true, Bool.and_eq_true, decide_eq_true_eq] at h ⊢
  omega

/-- A percent sign that is cut off from its triplet is encoded. -/
theorem encode_cut {digits : Text} (hinside : digits.length < 2)
    (hhex : ∀ c ∈ digits, c.isHexDigit = true) :
    encode true (.scalar '%' :: digits) = .ok ("%25".toText ++ digits) := by
  have huri : IsUriText digits :=
    .of_forall fun c hc => .inl (isUnreserved_of_isHexDigit (hhex c hc))
  have hno : ¬ Text.BeginsTriplet (.scalar '%' :: digits) := by
    refine Text.not_beginsTriplet fun a b post heq _ => ?_
    rw [heq, List.length_cons, List.length_cons] at hinside
    omega
  rw [encode, encodeFrom_scalar fun _ => hno, encodeFrom_of_isUriText huri]
  rfl

/-- What a character is encoded to begins with an unreserved character just if it is this one. -/
theorem singleton_isPrefix_encodeChar_iff {c : CodePoint} (hc : c.isUnreserved = true) (ch : Char)
    (s rest : Text) : [c] <+: encodeChar allowReserved ch ++ s ↔ [c] <+: .scalar ch :: rest := by
  unfold encodeChar
  split
  · simp only [List.cons_append, List.cons_prefix_cons, List.nil_prefix]
  · next hpass =>
    -- the first triplet begins with a percent sign, and the character itself does not pass
    have hpercent : c ≠ .scalar '%' := by
      rintro rfl
      cases hc
    have hne : c ≠ .scalar ch := by
      rintro rfl
      rw [passes, hc, Bool.true_or] at hpass
      exact hpass rfl
    obtain ⟨byte, bytes, hbytes⟩ :=
      List.exists_cons_of_ne_nil (String.utf8EncodeChar_ne_nil (c := ch))
    simp only [hbytes, List.flatMap_cons, triplet, List.cons_append, List.cons_prefix_cons,
      hpercent, hne, false_and]

/-- An encoded text begins with an unreserved character just if the text does. -/
theorem singleton_isPrefix_encodeFrom_iff {c : CodePoint} (hc : c.isUnreserved = true)
    (h : encodeFrom allowReserved position t = .ok s) : [c] <+: s ↔ [c] <+: t := by
  fun_cases encodeFrom allowReserved position t with
  | case1 =>
    cases h
    exact Iff.rfl
  | case2 a b rest hpass =>
    rw [encodeFrom, if_pos hpass] at h
    obtain ⟨s, -, rfl⟩ := map_eq_ok.mp h
    simp only [List.cons_prefix_cons, List.nil_prefix]
  | case3 a b rest hpass =>
    rw [encodeFrom, if_neg hpass] at h
    obtain ⟨s, -, rfl⟩ := map_eq_ok.mp h
    exact singleton_isPrefix_encodeChar_iff hc '%' s _
  | case4 ch rest hno =>
    rw [encodeFrom_scalar fun _ => Text.not_beginsTriplet hno] at h
    obtain ⟨s, -, rfl⟩ := map_eq_ok.mp h
    exact singleton_isPrefix_encodeChar_iff hc ch s rest
  | case5 => cases h

/-- What stands in front of a triplet is encoded alike, whether the triplet is cut or not.  Behind
it, the triplet passes where it is whole, and its percent sign is encoded where it is cut. -/
theorem exists_encode_of_cutsTriplet {front back before digits : Text}
    (h : front.CutsTriplet back before digits) (hno : ¬ (front ++ back).HasSurrogate) :
    ∃ s a b rest r, front ++ back = before ++ .scalar '%' :: a :: b :: rest ∧
      encode true rest = .ok r ∧ encode true front = .ok (s ++ ("%25".toText ++ digits)) ∧
      encode true (front ++ back) = .ok (s ++ .scalar '%' :: a :: b :: r) := by
  have hhex := h.isHexDigit
  obtain ⟨hfront, ⟨a, b, rest, htriplet, ha, hb⟩, hinside⟩ := h
  have hwhole : front ++ back = before ++ .scalar '%' :: a :: b :: rest := by
    rw [hfront, List.append_assoc, htriplet]
  -- no cut in front of the percent sign goes through a triplet
  have hcut : ∀ rest, true = true → ∀ before' digits',
      ¬ before.CutsTriplet (.scalar '%' :: rest) before' digits' := fun rest _ _ _ =>
    Text.not_cutsTriplet_percent rest
  rw [hwhole, Text.hasSurrogate_append, Text.hasSurrogate_cons, Text.hasSurrogate_cons,
    Text.hasSurrogate_cons] at hno
  obtain ⟨s, hs⟩ := (exists_encode_eq_ok_iff true before).mpr fun hbefore => hno (.inl hbefore)
  obtain ⟨r, hr⟩ := (exists_encode_eq_ok_iff true rest).mpr fun hrest =>
    hno (.inr (.inr (.inr (.inr hrest))))
  have htriplet : encode true (.scalar '%' :: a :: b :: rest) =
      .ok (.scalar '%' :: a :: b :: r) := by
    rw [encode] at hr
    rw [encode, encodeFrom, if_pos (by simp [ha, hb]), hr]
    rfl
  refine ⟨s, a, b, rest, r, hwhole, hr, ?_, ?_⟩
  · rw [hfront]
    exact encodeFrom_append (hcut digits) hs (encode_cut hinside hhex)
  · rw [hwhole]
    exact encodeFrom_append (hcut (a :: b :: rest)) hs htriplet

/-- Where a triplet is cut, the front of the text is not encoded to a beginning of the encoded text,
unless the text reads there as the encoded percent sign does. -/
theorem isPrefix_iff_of_cutsTriplet {front back before digits : Text}
    (h : front.CutsTriplet back before digits) (hs : encode true front = .ok s)
    (hr : encode true (front ++ back) = .ok r) :
    s <+: r ↔ before ++ ("%25".toText ++ digits) <+: front ++ back := by
  have hno := (exists_encode_eq_ok_iff true (front ++ back)).mp ⟨r, hr⟩
  obtain ⟨p, a, b, rest, q, hwhole, hq, hfront, hboth⟩ := exists_encode_of_cutsTriplet h hno
  cases hs.symm.trans hfront
  cases hr.symm.trans hboth
  -- a digit behind the triplet is encoded as itself
  have hdigits : digits <+: q ↔ digits <+: rest := by
    have hhex := h.isHexDigit
    have hinside := h.inside
    match digits, hinside with
    | [], _ => simp
    | [x], _ =>
      have hx := isUnreserved_of_isHexDigit (hhex x List.mem_cons_self)
      exact singleton_isPrefix_encodeFrom_iff hx hq
  -- what is encoded in front of the percent sign is the same on both sides
  rw [hwhole, List.prefix_append_right_inj, List.prefix_append_right_inj]
  show CodePoint.scalar '%' :: .scalar '2' :: .scalar '5' :: digits <+: _ ↔
    CodePoint.scalar '%' :: .scalar '2' :: .scalar '5' :: digits <+: _
  simp only [List.cons_prefix_cons, hdigits]

end Percent

/-! ## Values under their names -/

/-- If a prefix is encoded to the empty text, there is nothing behind it. -/
theorem Percent.encode_drop_eq_nil {allowReserved : Bool} {n : Nat} {t s r : Text} (hn : 0 < n)
    (hs : encode allowReserved (t.take n) = .ok s) (hr : encode allowReserved (t.drop n) = .ok r)
    (h : s = []) : r = [] := by
  rw [encode_eq_nil_iff hs, List.take_eq_nil_iff] at h
  rw [encode_eq_nil_iff hr]
  rcases h with hzero | rfl
  · exact absurd hzero (Nat.ne_of_gt hn)
  · exact List.drop_nil

namespace Operator

variable {o : Operator} {name t s r q before digits : Text} {n : Nat}

/-- What an operator writes in front of a value that is not empty does not depend on the value. -/
theorem exists_withName_eq (o : Operator) (name : Text) :
    ∃ heading, ∀ value, value ≠ [] → o.withName name value = heading ++ value := by
  unfold withName
  -- with a name there is an equals sign in front of the value, and else nothing
  by_cases hnamed : o.named = true
  · refine ⟨name ++ [.scalar '='], fun value hvalue => ?_⟩
    rw [if_pos hnamed, if_neg hvalue, List.append_assoc, List.singleton_append]
  · exact ⟨[], fun value _ => by rw [if_neg hnamed, List.nil_append]⟩

/-- A value is continued under its name, unless it is empty. -/
theorem withName_append (h : s = [] → r = []) :
    o.withName name (s ++ r) = o.withName name s ++ r := by
  by_cases hs : s = []
  · rw [h hs, List.append_nil, List.append_nil]
  · obtain ⟨heading, hheading⟩ := o.exists_withName_eq name
    rw [hheading s hs, hheading (s ++ r) (List.append_ne_nil_of_left_ne_nil hs r),
      List.append_assoc]

/-- Where no triplet that passes is cut, the rest of a value is written behind its prefix. -/
theorem withName_of_not_cutsTriplet (hn : 0 < n)
    (hcut : o.allowReserved = true → ∀ before digits,
      ¬ Text.CutsTriplet (t.take n) (t.drop n) before digits)
    (hs : Percent.encode o.allowReserved (t.take n) = .ok s)
    (hr : Percent.encode o.allowReserved (t.drop n) = .ok r)
    (hq : Percent.encode o.allowReserved t = .ok q) :
    o.withName name q = o.withName name s ++ r := by
  have hboth := Percent.encodeFrom_append hcut hs hr
  rw [List.take_append_drop] at hboth
  cases hq.symm.trans hboth
  exact withName_append (Percent.encode_drop_eq_nil hn hs hr)

/-- Where a triplet is cut that would pass, the prefix of a value is written as a beginning of the
value just if the value reads there as the encoded percent sign does. -/
theorem withName_isPrefix_iff_of_cutsTriplet (hpass : o.allowReserved = true)
    (h : Text.CutsTriplet (t.take n) (t.drop n) before digits)
    (hs : Percent.encode o.allowReserved (t.take n) = .ok s)
    (hq : Percent.encode o.allowReserved t = .ok q) :
    o.withName name s <+: o.withName name q ↔ before ++ ("%25".toText ++ digits) <+: t := by
  -- there is a percent sign in front of the cut, so that neither text is empty
  have hne : t.take n ≠ [] := by
    rw [h.front_eq]
    simp
  have hs' : s ≠ [] := fun hnil => hne ((Percent.encode_eq_nil_iff hs).mp hnil)
  have hq' : q ≠ [] := fun hnil =>
    hne (by rw [(Percent.encode_eq_nil_iff hq).mp hnil, List.take_nil])
  obtain ⟨heading, hheading⟩ := o.exists_withName_eq name
  rw [hheading s hs', hheading q hq', List.prefix_append_right_inj]
  rw [hpass] at hs hq
  rw [← List.take_append_drop n t] at hq
  have hiff := Percent.isPrefix_iff_of_cutsTriplet h hs hq
  rwa [List.take_append_drop] at hiff

end Operator

/-! ## Expansions -/

/-- Whatever its modifier, a variable that is bound to a single text is expanded to what the
modifier leaves of the text, encoded. -/
theorem Value.expandTemplate_ofVariable {op : Option Operator} {o : Operator} {v : VarSpec}
    {c : Context} {t s : Text} (ho : op.getD .simple = o) (hop : o.isReserved = false)
    (hlimit : ∀ n, v.limit? = some n → n ≤ 9999) (hlook : c.look v.name.text = .item (.atom t))
    (hs : Percent.encode o.allowReserved (v.cut t) = .ok s) :
    Value.expandTemplate (.ofExpression (.ofVariable op v)) c.toValue =
      .ok (o.first ++ o.withName v.name.text s) := by
  have hcheck : (Expression.ofVariable op v).check = .ok () := by
    refine Expression.check_eq_ok_iff.mpr ⟨?_, List.forall_mem_singleton.mpr hlimit⟩
    rw [← hop, ← ho]
    rfl
  rw [Value.expandTemplate_ofExpression, Expression.expand_ofVariable ho hcheck hlook hs]
  rfl

/-- With a prefix length, a variable that is bound to a single text is expanded to a beginning of
what it is expanded to without one, and the rest of the text, encoded, follows it there.  A length
that is not less than that of the text changes nothing.  The exception are operators that let
triplets pass, where the cut goes through one: its percent sign is then encoded, and the result is
a beginning of the other one just if the text reads there as the encoded percent sign does. -/
theorem Value.expandTemplate_limit (op : Option Operator) (o : Operator) (name : VarName)
    (n : MaxLength) (c : Context) (t : Text) (ho : op.getD .simple = o)
    (hop : o.isReserved = false) (hn : n.value ≤ 9999)
    (hlook : c.look name.text = .item (.atom t)) (ht : ¬ t.HasSurrogate) :
    ∃ s s', Value.expandTemplate (.ofExpression (.ofVariable op ⟨name, some (.limit n)⟩))
        c.toValue = .ok s ∧
      Value.expandTemplate (.ofExpression (.ofVariable op ⟨name, none⟩)) c.toValue = .ok s' ∧
      (t.length ≤ n.value → s = s') ∧
      ((o.allowReserved = true → ∀ before digits,
          ¬ Text.CutsTriplet (t.take n.value) (t.drop n.value) before digits) →
        ∃ r, Value.encode (.text (t.drop n.value)) o.allowReserved = .ok r ∧ s' = s ++ r) ∧
      (s <+: s' ↔ (o.allowReserved = true → ∀ before digits,
        Text.CutsTriplet (t.take n.value) (t.drop n.value) before digits →
          before ++ ("%25".toText ++ digits) <+: t)) := by
  have hpieces := ht
  rw [← List.take_append_drop n.value t, Text.hasSurrogate_append, not_or] at hpieces
  -- the text and its two pieces can be encoded, and so the variable can be expanded both ways
  obtain ⟨s, hs⟩ := (Percent.exists_encode_eq_ok_iff o.allowReserved (t.take n.value)).mpr hpieces.1
  obtain ⟨r, hr⟩ := (Percent.exists_encode_eq_ok_iff o.allowReserved (t.drop n.value)).mpr hpieces.2
  obtain ⟨q, hq⟩ := (Percent.exists_encode_eq_ok_iff o.allowReserved t).mpr ht
  have hcut := Value.expandTemplate_ofVariable (v := ⟨name, some (.limit n)⟩) ho hop
    (fun m hm => by cases hm; exact hn) hlook hs
  have hwhole := Value.expandTemplate_ofVariable (v := ⟨name, none⟩) ho hop
    (fun m hm => nomatch hm) hlook hq
  -- where no triplet is cut, both expansions begin alike, and the rest follows
  have happend : (o.allowReserved = true → ∀ before digits,
      ¬ Text.CutsTriplet (t.take n.value) (t.drop n.value) before digits) →
      o.first ++ o.withName name.text q = o.first ++ o.withName name.text s ++ r := by
    intro hno
    rw [Operator.withName_of_not_cutsTriplet n.positive hno hs hr hq, List.append_assoc]
  refine ⟨_, _, hcut, hwhole, fun hlong => ?_, fun hno => ?_,
    fun hprefix hpass before digits h => ?_, fun hreads => ?_⟩
  · -- nothing is cut
    rw [List.take_of_length_le hlong, hq] at hs
    cases hs
    rfl
  · exact ⟨r, Value.encode_text_eq_ok.mpr hr, happend hno⟩
  · rw [List.prefix_append_right_inj] at hprefix
    exact (Operator.withName_isPrefix_iff_of_cutsTriplet hpass h hs hq).mp hprefix
  · by_cases hno : o.allowReserved = true → ∀ before digits,
        ¬ Text.CutsTriplet (t.take n.value) (t.drop n.value) before digits
    · exact ⟨r, (happend hno).symm⟩
    · push Not at hno
      obtain ⟨hpass, before, digits, h⟩ := hno
      rw [List.prefix_append_right_inj]
      exact (Operator.withName_isPrefix_iff_of_cutsTriplet hpass h hs hq).mpr
        (hreads hpass before digits h)

/-- A cut between a triplet and a letter: the letter is what is missing. -/
theorem Value.expandTemplate_limit_behind :
    ∃ (name : VarName) (n : MaxLength) (o : Operator) (c : Context),
      o ∈ Operator.registered ∧ o.allowReserved = true ∧
        c.look name.text = .item (.atom "é%c3b".toText) ∧
        (Expression.ofVariable (some o) ⟨name, some (.limit n)⟩).format = "{#x:4}".toText ∧
        Value.expandTemplate (.ofExpression (.ofVariable (some o) ⟨name, some (.limit n)⟩))
          c.toValue = .ok "#%C3%A9%c3".toText ∧
        Value.expandTemplate (.ofExpression (.ofVariable (some o) ⟨name, none⟩)) c.toValue =
          .ok "#%C3%A9%c3b".toText ∧
        "#%C3%A9%c3".toText <+: "#%C3%A9%c3b".toText := by
  let name : VarName := ⟨"x".toText, by decide⟩
  let n : MaxLength := ⟨4, by decide⟩
  let o : Operator := .passing '#' "#".toText
  let c : Context := ⟨[(.text "x".toText, .atom "é%c3b".toText)]⟩
  have hlook : c.look name.text = .item (.atom "é%c3b".toText) := rfl
  obtain ⟨s, s', hs, hs', -, -, hiff⟩ := Value.expandTemplate_limit (some o) o name n c _ rfl rfl
    (by decide) hlook (by decide)
  have hcut : Value.expandTemplate (.ofExpression (.ofVariable (some o) ⟨name, some (.limit n)⟩))
      c.toValue = .ok "#%C3%A9%c3".toText := by decide +kernel
  have hwhole : Value.expandTemplate (.ofExpression (.ofVariable (some o) ⟨name, none⟩)) c.toValue =
      .ok "#%C3%A9%c3b".toText := by decide +kernel
  cases hcut.symm.trans hs
  cases hwhole.symm.trans hs'
  refine ⟨name, n, o, c, by decide, rfl, hlook, by decide, hcut, hwhole, hiff.mpr ?_⟩
  -- neither of the two characters in front of the cut is a percent sign
  intro _ before digits h
  have hlength : 4 = (before ++ CodePoint.scalar '%' :: digits).length := by
    rw [← h.front_eq]
    rfl
  rw [List.length_append, List.length_cons] at hlength
  have hinside := h.inside
  have hmem : CodePoint.scalar '%' ∈ List.drop 2 (List.take n.value "é%c3b".toText) := by
    rw [h.front_eq, List.drop_append_of_le_length (by omega)]
    simp
  exact absurd hmem (by decide)

/-- A cut through a triplet that would pass: its percent sign is encoded, and the result is no
beginning of the other one. -/
theorem Value.expandTemplate_limit_torn :
    ∃ (name : VarName) (n : MaxLength) (o : Operator) (c : Context),
      o ∈ Operator.registered ∧ o.isReserved = false ∧ n.value ≤ 9999 ∧
        c.look name.text = .item (.atom "%41".toText) ∧ ¬ Text.HasSurrogate "%41".toText ∧
        (Expression.ofVariable (some o) ⟨name, some (.limit n)⟩).format = "{+x:2}".toText ∧
        Value.expandTemplate (.ofExpression (.ofVariable (some o) ⟨name, some (.limit n)⟩))
          c.toValue = .ok "%254".toText ∧
        Value.expandTemplate (.ofExpression (.ofVariable (some o) ⟨name, none⟩)) c.toValue =
          .ok "%41".toText ∧
        ¬ "%254".toText <+: "%41".toText :=
  ⟨⟨"x".toText, by decide⟩, ⟨2, by decide⟩, .passing '+' [],
    ⟨[(.text "x".toText, .atom "%41".toText)]⟩, by decide, rfl, by decide, rfl, by decide,
    by decide, by decide +kernel, by decide +kernel, by decide⟩

end UriTemplate
