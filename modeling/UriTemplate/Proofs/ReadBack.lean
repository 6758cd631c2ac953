import UriTemplate.Proofs.Decoding
import UriTemplate.Proofs.ExpansionSteps
import UriTemplate.Proofs.SequentialExpansion
import UriTemplate.Proofs.UriText
import Mathlib.Data.List.Forall2
import Mathlib.Data.List.TakeWhile

/-!
# Reading values back

The operators `/`, `;`, `?` and `&` write a character in front of the first value and a
separator between two of them, and let only unreserved characters of a value pass.  So an
expansion under one of them can be cut at its separators, and there is one piece for each text
that the variables show (`Expression.shown`): what stands in the piece behind the name or the key
is decoded to the bytes of the text (`Shown.IsReadFrom`).

A piece has no separator in it, because all of its characters are unreserved, percent signs,
equals signs or commas (`CodePoint.isInPiece`).  Splitting joined texts splits each of them
(`splitOn_intercalate_eq_flatMap`), so that the variables are followed one by one.
-/

namespace UriTemplate

/-! ## What is shown -/

/-- What one piece of an expansion shows. -/
inductive Shown where
  /-- A text of a variable with this name. -/
  | single (name text : Text)
  /-- Texts of a variable with this name, together. -/
  | joined (name : Text) (texts : List Text)
  /-- A key and its value. -/
  | pair (key value : Text)
deriving DecidableEq

/-- What the pieces of a variable show, in order: a collection that is not expanded member by
member is shown in a single piece. -/
def VarSpec.shown {β : Type} (v : VarSpec) : Item β → List Shown
  | .atom t => [.single v.name.text (v.cut t)]
  | .list ts =>
    if v.isExploded then ts.map (.single v.name.text) else [.joined v.name.text ts]
  | .assoc pairs =>
    if v.isExploded then pairs.entries.map fun p => .pair p.1 p.2
    else [.joined v.name.text (pairs.entries.flatMap fun p => [p.1, p.2])]
  | .bare _ => []

/-- What the pieces of a variable show where names are bound by `look`.  A variable that is not
defined has no piece. -/
def VarSpec.shownBy {β : Type} (look : Text → Binding β) (v : VarSpec) : List Shown :=
  match look v.name.text with
  | .item i => if i.isDefined then v.shown i else []
  | _ => []

/-- What the pieces of an expression show: those of its variables, in order. -/
def Expression.shown {β : Type} (look : Text → Binding β) (e : Expression) : List Shown :=
  e.specs.flatMap (VarSpec.shownBy look)

/-! ## Reading a piece -/

namespace Text

/-- What stands in front of the first equals sign. -/
def beforeEquals (piece : Text) : Text := piece.takeWhile (· != .scalar '=')

/-- What stands behind the first equals sign. -/
def behindEquals (piece : Text) : Text := (piece.dropWhile (· != .scalar '=')).drop 1

/-- The piece is the label alone, or an equals sign and something else follow the label. -/
structure IsUnder (piece label : Text) : Prop where
  before : piece.beforeEquals = label
  forms : piece = label ∨ piece = label ++ .scalar '=' :: piece.behindEquals

variable {label : Text}

/-- No character of such a label is an equals sign. -/
theorem forall_bne_of_notMem (h : .scalar '=' ∉ label) :
    ∀ c ∈ label, (c != .scalar '=') = true := by
  intro c hc
  rw [bne_iff_ne]
  intro heq
  exact h (heq ▸ hc)

/-- The label is what stands in front of the equals sign. -/
theorem beforeEquals_append (h : .scalar '=' ∉ label) (value : Text) :
    (label ++ .scalar '=' :: value).beforeEquals = label := by
  rw [beforeEquals, List.takeWhile_append_of_pos (forall_bne_of_notMem h)]
  simp

/-- The value is what stands behind it. -/
theorem behindEquals_append (h : .scalar '=' ∉ label) (value : Text) :
    (label ++ .scalar '=' :: value).behindEquals = value := by
  rw [behindEquals, List.dropWhile_append_of_pos (forall_bne_of_notMem h)]
  simp

/-- A label with an equals sign and a value behind it is a piece under the label. -/
theorem isUnder_append (h : .scalar '=' ∉ label) (value : Text) :
    IsUnder (label ++ .scalar '=' :: value) label := by
  constructor
  · exact beforeEquals_append h value
  · rw [behindEquals_append h]
    exact .inr rfl

/-- Nothing stands behind the equals sign where there is none. -/
theorem behindEquals_self (h : .scalar '=' ∉ label) : label.behindEquals = [] := by
  have hnil : label.dropWhile (· != .scalar '=') = [] :=
    List.dropWhile_eq_nil_iff.mpr (forall_bne_of_notMem h)
  rw [behindEquals, hnil, List.drop_nil]

/-- A label alone is a piece under the label. -/
theorem isUnder_self (h : .scalar '=' ∉ label) : IsUnder label label := by
  constructor
  · exact List.takeWhile_eq_self_iff.mpr (forall_bne_of_notMem h)
  · exact .inl rfl

/-- The text of the values in a piece: behind the equals sign, if names are written. -/
def valueText (named : Bool) (piece : Text) : Text := if named then piece.behindEquals else piece

end Text

/-- What is shown can be read from the piece. -/
def Shown.IsReadFrom (named : Bool) (piece : Text) : Shown → Prop
  | .single name t =>
    (named = true → piece.IsUnder name) ∧
      t.utf8? = some (Percent.decode (piece.valueText named))
  | .joined name ts =>
    (named = true → piece.IsUnder name) ∧
      ts.map Text.utf8? =
        ((piece.valueText named).splitOn (.scalar ',')).map (some ∘ Percent.decode)
  | .pair key value => ∃ label, Percent.encode false key = .ok label ∧ piece.IsUnder label ∧
      (named = false → piece = label ++ .scalar '=' :: piece.behindEquals) ∧
      key.utf8? = some (Percent.decode label) ∧
      value.utf8? = some (Percent.decode piece.behindEquals)

/-- There is one piece for each thing that is shown, in order, and each can be read. -/
abbrev Shown.AreReadFrom (named : Bool) (shown : List Shown) (pieces : List Text) : Prop :=
  List.Forall₂ (fun x piece => x.IsReadFrom named piece) shown pieces

/-! ## Splitting -/

/-- Splitting joined texts splits each of them. -/
theorem splitOn_intercalate_eq_flatMap (sep : CodePoint) (ts : List Text) (hne : ts ≠ []) :
    (List.intercalate [sep] ts).splitOn sep = ts.flatMap (List.splitOn sep) := by
  induction ts with
  | nil => exact absurd rfl hne
  | cons t ts ih =>
    -- the last text has no separator behind it
    by_cases hts : ts = []
    · subst hts
      simp
    · rw [List.intercalate_cons_of_ne_nil hts, List.append_assoc, List.singleton_append,
        List.splitOn_append_cons_self, ih hts, List.flatMap_cons]

section Forall₂

variable {α β : Type} {R : α → β → Prop} {xs : List α} {ys : List β}

/-- Related lists are empty together. -/
theorem ne_nil_of_forall₂ (h : List.Forall₂ R xs ys) (hne : xs ≠ []) : ys ≠ [] := by
  intro hnil
  rw [hnil, List.forall₂_nil_right_iff] at h
  exact hne h

/-- What is known of every related member is known of all members. -/
theorem forall_mem_of_forall₂ {P : β → Prop} (h : List.Forall₂ R xs ys)
    (hP : ∀ x y, R x y → P y) : ∀ y ∈ ys, P y := by
  induction h with
  | nil => exact List.forall_mem_nil _
  | cons hxy _ ih => exact List.forall_mem_cons.mpr ⟨hP _ _ hxy, ih⟩

end Forall₂

/-! ## Characters of pieces -/

/-- The characters of pieces are unreserved, percent signs, equals signs and commas. -/
def CodePoint.isInPiece (c : CodePoint) : Bool := c.isUnreserved || c ∈ "%=,".toText

/-- What can be put into a piece: a text without the characters that divide one. -/
structure Text.IsAtomic (t : Text) : Prop where
  inPiece : ∀ c ∈ t, c.isInPiece = true
  noEquals : .scalar '=' ∉ t
  noComma : .scalar ',' ∉ t

/-- Unreserved characters and percent signs do not divide a piece. -/
theorem Text.isAtomic_of_forall {t : Text}
    (h : ∀ c ∈ t, c = .scalar '%' ∨ c.isUnreserved = true) : t.IsAtomic := by
  constructor
  · intro c hc
    rcases h c hc with rfl | hc
    · decide
    · rw [CodePoint.isInPiece, hc, Bool.true_or]
  · exact fun hc => absurd (h _ hc) (by decide)
  · exact fun hc => absurd (h _ hc) (by decide)

/-- Names can be put into a piece. -/
theorem isAtomic_name (n : VarName) : n.text.IsAtomic :=
  Text.isAtomic_of_forall fun c hc => .inr (isUnreserved_of_mem_name n c hc)

/-- A text that is encoded is atomic, and it is decoded to its bytes. -/
theorem Percent.isAtomic_of_encode {t s : Text} (h : encode false t = .ok s) :
    s.IsAtomic ∧ t.utf8? = some (decode s) :=
  ⟨Text.isAtomic_of_forall fun _ hc => mem_of_encodeFrom h hc, utf8?_of_encodeFrom h⟩

/-- Characters that may stand in a piece may do so in joined texts. -/
theorem isInPiece_of_mem_intercalate {c : CodePoint} {ts : List Text}
    (h : ∀ t ∈ ts, ∀ c ∈ t, c.isInPiece = true) (hc : c ∈ ",".toText.intercalate ts) :
    c.isInPiece = true := by
  induction ts with
  | nil => cases hc
  | cons t ts ih =>
    by_cases hts : ts = []
    · subst hts
      rw [List.intercalate_singleton] at hc
      exact h t List.mem_cons_self c hc
    · rw [List.intercalate_cons_of_ne_nil hts, List.mem_append, List.mem_append] at hc
      -- in the first text, at a comma, or further on
      rcases hc with (hc | hc) | hc
      · exact h t List.mem_cons_self c hc
      · rw [List.mem_singleton.mp hc]
        decide
      · exact ih (fun u hu => h u (List.mem_cons_of_mem _ hu)) hc

/-! ## Operators -/

namespace Operator

/-- An operator whose expansions can be cut into pieces. -/
structure Separates (o : Operator) (first sep : CodePoint) : Prop where
  first_eq : o.first = [first]
  separator_eq : o.separator = [sep]
  /-- The separator stands in no piece. -/
  outside : sep.isInPiece = false
  ifEmpty : o.ifEmpty = [] ∨ o.ifEmpty = "=".toText
  encodes : o.allowReserved = false

variable {o : Operator} {first sep : CodePoint} {label value : Text}

/-- What is written under a name is read as the value that stands under the name. -/
theorem isUnder_withName (ho : o.Separates first sep) (hlabel : label.IsAtomic) (value : Text)
    (hnamed : o.named = true) :
    (o.withName label value).IsUnder label ∧ (o.withName label value).behindEquals = value := by
  unfold withName
  rw [if_pos hnamed]
  -- an empty value is written as the operator says, and any other one behind an equals sign
  by_cases hvalue : value = []
  · rw [if_pos hvalue, hvalue]
    rcases ho.ifEmpty with hempty | hempty
    · -- the name stands alone
      rw [hempty, List.append_nil]
      exact ⟨Text.isUnder_self hlabel.noEquals, Text.behindEquals_self hlabel.noEquals⟩
    · rw [hempty]
      exact ⟨Text.isUnder_append hlabel.noEquals [], Text.behindEquals_append hlabel.noEquals []⟩
  · rw [if_neg hvalue]
    exact ⟨Text.isUnder_append hlabel.noEquals value,
      Text.behindEquals_append hlabel.noEquals value⟩

/-- The value is read back whether names are written or not. -/
theorem valueText_withName (ho : o.Separates first sep) (hlabel : label.IsAtomic)
    (value : Text) :
    (o.named = true → (o.withName label value).IsUnder label) ∧
      (o.withName label value).valueText o.named = value := by
  by_cases hnamed : o.named = true
  · obtain ⟨hunder, hvalue⟩ := isUnder_withName ho hlabel value hnamed
    refine ⟨fun _ => hunder, ?_⟩
    rw [Text.valueText, if_pos hnamed, hvalue]
  · refine ⟨fun h => absurd h hnamed, ?_⟩
    rw [Text.valueText, if_neg hnamed, withName, if_neg hnamed]

/-- A key and its value are read back. -/
theorem isUnder_member (ho : o.Separates first sep) (hlabel : label.IsAtomic) (value : Text) :
    (o.member label value).IsUnder label ∧ (o.member label value).behindEquals = value ∧
      (o.named = false → o.member label value = label ++ .scalar '=' :: value) := by
  unfold member
  by_cases hnamed : o.named = true
  · rw [if_pos hnamed]
    obtain ⟨hunder, hvalue⟩ := isUnder_withName ho hlabel value hnamed
    exact ⟨hunder, hvalue, fun h => absurd (hnamed.symm.trans h) (by decide)⟩
  · rw [if_neg hnamed]
    exact ⟨Text.isUnder_append hlabel.noEquals value,
      Text.behindEquals_append hlabel.noEquals value, fun _ => rfl⟩

/-- A value under its name stays within the characters of pieces. -/
theorem isInPiece_withName (ho : o.Separates first sep) (hlabel : label.IsAtomic)
    (hvalue : ∀ c ∈ value, c.isInPiece = true) :
    ∀ c ∈ o.withName label value, c.isInPiece = true := by
  unfold withName
  -- with the name or without, and with the equals sign or without
  split
  · split
    · refine List.forall_mem_append.mpr ⟨hlabel.inPiece, ?_⟩
      rcases ho.ifEmpty with hempty | hempty
      · rw [hempty]
        exact List.forall_mem_nil _
      · rw [hempty]
        decide
    · refine List.forall_mem_append.mpr ⟨hlabel.inPiece, ?_⟩
      exact List.forall_mem_cons.mpr ⟨by decide, hvalue⟩
  · exact hvalue

/-- So does a value under its key. -/
theorem isInPiece_member (ho : o.Separates first sep) (hlabel : label.IsAtomic)
    (hvalue : ∀ c ∈ value, c.isInPiece = true) :
    ∀ c ∈ o.member label value, c.isInPiece = true := by
  unfold member
  split
  · exact isInPiece_withName ho hlabel hvalue
  · refine List.forall_mem_append.mpr ⟨hlabel.inPiece, ?_⟩
    exact List.forall_mem_cons.mpr ⟨by decide, hvalue⟩

/-- So the separator stands in none of them. -/
theorem Separates.notMem (ho : o.Separates first sep) {piece : Text}
    (h : ∀ c ∈ piece, c.isInPiece = true) : sep ∉ piece := by
  intro hmem
  have := h sep hmem
  rw [ho.outside] at this
  cases this

end Operator

/-! ## Variables -/

namespace VarSpec

variable {v : VarSpec} {o : Operator} {first sep : CodePoint} {s : Text}

/-- A text under the name of the variable. -/
theorem isReadFrom_single (ho : o.Separates first sep) {t value : Text}
    (h : Percent.encode o.allowReserved t = .ok value) :
    (Shown.single v.name.text t).IsReadFrom o.named (o.withName v.name.text value) ∧
      sep ∉ o.withName v.name.text value := by
  -- what is encoded holds neither the separator nor an equals sign
  rw [ho.encodes] at h
  obtain ⟨hatomic, hdecode⟩ := Percent.isAtomic_of_encode h
  obtain ⟨hunder, hvalue⟩ := Operator.valueText_withName ho (isAtomic_name v.name) value
  constructor
  · exact ⟨hunder, by rw [hvalue, hdecode]⟩
  · exact ho.notMem (Operator.isInPiece_withName ho (isAtomic_name v.name) hatomic.inPiece)

/-- Several texts under the name of the variable: they come back where the value is split at
its commas. -/
theorem readFrom_joined (ho : o.Separates first sep) {ts values : List Text} {joined : Text}
    (hjoined : ∀ c ∈ joined, c.isInPiece = true) (hsplit : joined.splitOn (.scalar ',') = values)
    (hdecode : ts.map Text.utf8? = values.map (some ∘ Percent.decode)) :
    Shown.AreReadFrom o.named [.joined v.name.text ts]
      ((o.withName v.name.text joined).splitOn sep) := by
  obtain ⟨hunder, hvalue⟩ := Operator.valueText_withName ho (isAtomic_name v.name) joined
  have hnot : sep ∉ o.withName v.name.text joined :=
    ho.notMem (Operator.isInPiece_withName ho (isAtomic_name v.name) hjoined)
  -- all of it is one piece, and the commas are looked at within the piece
  rw [List.splitOn_eq_singleton hnot]
  refine .cons ⟨hunder, ?_⟩ .nil
  rw [hvalue, hsplit, hdecode]

/-- A single text is one piece. -/
theorem readFrom_atom (ho : o.Separates first sep) {t : Text} (h : v.renderAtom o t = .ok s) :
    Shown.AreReadFrom o.named [.single v.name.text (v.cut t)] (s.splitOn sep) := by
  obtain ⟨value, hvalue, hs⟩ := bind_eq_ok.mp h
  rw [pure_eq_ok] at hs
  subst hs
  obtain ⟨hread, hnot⟩ := isReadFrom_single (v := v) ho hvalue
  rw [List.splitOn_eq_singleton hnot]
  exact .cons hread .nil

/-- Pieces that are joined come back where the text is split at the separators. -/
theorem readFrom_intercalate {α β : Type} (ho : o.Separates first sep) {toShown : α → Shown}
    {write : β → Text} {xs : List α} {ys : List β} (hne : xs ≠ [])
    (h : List.Forall₂ (fun x y => (toShown x).IsReadFrom o.named (write y) ∧ sep ∉ write y) xs ys) :
    Shown.AreReadFrom o.named (xs.map toShown)
      ((o.separator.intercalate (ys.map write)).splitOn sep) := by
  have hys : ys.map write ≠ [] := fun hnil =>
    ne_nil_of_forall₂ h hne (List.map_eq_nil_iff.mp hnil)
  have hnot : ∀ piece ∈ ys.map write, sep ∉ piece :=
    List.forall_mem_map.mpr (forall_mem_of_forall₂ h fun _ _ hxy => hxy.2)
  rw [ho.separator_eq, List.splitOn_intercalate sep hnot hys]
  show List.Forall₂ _ _ _
  rw [List.forall₂_map_left_iff, List.forall₂_map_right_iff]
  exact h.imp fun _ _ hxy => hxy.1

/-- Encoded texts are atomic, and they are decoded to their bytes. -/
theorem isAtomic_of_encoded {ts values : List Text}
    (h : List.Forall₂ (fun t value => Percent.encode false t = .ok value) ts values) :
    (∀ value ∈ values, value.IsAtomic) ∧
      ts.map Text.utf8? = values.map (some ∘ Percent.decode) := by
  -- text by text
  induction h with
  | nil => exact ⟨List.forall_mem_nil _, rfl⟩
  | cons henc _ ih =>
    obtain ⟨hatomic, hdecode⟩ := Percent.isAtomic_of_encode henc
    refine ⟨List.forall_mem_cons.mpr ⟨hatomic, ih.1⟩, ?_⟩
    rw [List.map_cons, List.map_cons, ih.2, hdecode]
    rfl

/-- A list is a piece for each member, or one piece with all of them. -/
theorem readFrom_list (ho : o.Separates first sep) {ts : List Text} (hne : ts ≠ [])
    (h : v.renderList o ts = .ok s) {β : Type} :
    Shown.AreReadFrom o.named (v.shown (.list ts : Item β)) (s.splitOn sep) := by
  obtain ⟨values, hvalues, hs⟩ := bind_eq_ok.mp h
  rw [pure_eq_ok] at hs
  subst hs
  have hrun := forall₂_of_mapM_eq_ok hvalues
  simp only [shown]
  -- member by member each piece is cut off at a separator; together they are split at their commas
  by_cases hexploded : v.isExploded = true
  · rw [if_pos hexploded, if_pos hexploded]
    exact readFrom_intercalate ho hne (hrun.imp fun _ _ henc => isReadFrom_single ho henc)
  · rw [if_neg hexploded, if_neg hexploded]
    have hvne := ne_nil_of_forall₂ hrun hne
    rw [ho.encodes] at hrun
    obtain ⟨hatomic, hdecode⟩ := isAtomic_of_encoded hrun
    refine readFrom_joined ho (fun c hc => ?_) (List.splitOn_intercalate _ ?_ hvne) hdecode
    · exact isInPiece_of_mem_intercalate (fun value hvalue => (hatomic value hvalue).inPiece) hc
    · exact fun value hvalue => (hatomic value hvalue).noComma

/-- The texts of a pair are encoded one by one. -/
theorem encoded_of_pairs {entries pairs : List (Text × Text)}
    (h : List.Forall₂ (fun p q => encodePair false p = .ok q) entries pairs) :
    List.Forall₂ (fun t value => Percent.encode false t = .ok value)
      (entries.flatMap fun p => [p.1, p.2]) (pairs.flatMap fun q => [q.1, q.2]) := by
  -- each pair gives its key and then its value
  induction h with
  | nil => exact .nil
  | cons henc _ ih =>
    obtain ⟨hkey, hvalue⟩ := Sequential.encodePair_eq_ok henc
    exact .cons hkey (.cons hvalue ih)

/-- Pairs with commas in them and between them come back text by text. -/
theorem splitOn_pairs {pairs : List (Text × Text)} (hne : pairs ≠ [])
    (hatomic : ∀ value ∈ pairs.flatMap (fun q => [q.1, q.2]), value.IsAtomic) :
    (",".toText.intercalate (pairs.map fun q => q.1 ++ .scalar ',' :: q.2)).splitOn (.scalar ',') =
      pairs.flatMap fun q => [q.1, q.2] := by
  have hjoin := splitOn_intercalate_eq_flatMap (.scalar ',')
    (pairs.map fun q => q.1 ++ .scalar ',' :: q.2) (by simpa using hne)
  rw [List.flatMap_map] at hjoin
  refine hjoin.trans (List.flatMap_congr fun q hq => ?_)
  have hkey := hatomic q.1 (List.mem_flatMap.mpr ⟨q, hq, by simp⟩)
  have hvalue := hatomic q.2 (List.mem_flatMap.mpr ⟨q, hq, by simp⟩)
  -- within a pair the comma between the key and the value is the only one
  rw [List.splitOn_append_cons_self_of_not_mem hkey.noComma,
    List.splitOn_eq_singleton hvalue.noComma]

/-- A key with its value. -/
theorem isReadFrom_pair (ho : o.Separates first sep) {p q : Text × Text}
    (h : encodePair o.allowReserved p = .ok q) :
    (Shown.pair p.1 p.2).IsReadFrom o.named (o.member q.1 q.2) ∧ sep ∉ o.member q.1 q.2 := by
  rw [ho.encodes] at h
  obtain ⟨hkey, hvalue⟩ := Sequential.encodePair_eq_ok h
  obtain ⟨hlabel, hkeyDecode⟩ := Percent.isAtomic_of_encode hkey
  obtain ⟨hatomic, hvalueDecode⟩ := Percent.isAtomic_of_encode hvalue
  -- the key is the label, which the value stands behind
  obtain ⟨hunder, hbehind, hplain⟩ := Operator.isUnder_member ho hlabel q.2
  constructor
  · refine ⟨q.1, hkey, hunder, ?_, hkeyDecode, ?_⟩
    · rw [hbehind]
      exact hplain
    · rw [hbehind]
      exact hvalueDecode
  · exact ho.notMem (Operator.isInPiece_member ho hlabel hatomic.inPiece)

/-- So is an association, whose members are keys with their values. -/
theorem readFrom_assoc (ho : o.Separates first sep) {assoc : Assoc} (hne : assoc.entries ≠ [])
    (h : v.renderAssoc o assoc = .ok s) {β : Type} :
    Shown.AreReadFrom o.named (v.shown (.assoc assoc : Item β)) (s.splitOn sep) := by
  obtain ⟨pairs, hpairs, hs⟩ := bind_eq_ok.mp h
  rw [pure_eq_ok] at hs
  subst hs
  have hrun := forall₂_of_mapM_eq_ok hpairs
  simp only [shown]
  -- the same for pairs, whose keys and values are both separated by commas
  by_cases hexploded : v.isExploded = true
  · rw [if_pos hexploded, if_pos hexploded]
    exact readFrom_intercalate ho hne (hrun.imp fun _ _ henc => isReadFrom_pair ho henc)
  · rw [if_neg hexploded, if_neg hexploded]
    have hpne := ne_nil_of_forall₂ hrun hne
    rw [ho.encodes] at hrun
    obtain ⟨hatomic, hdecode⟩ := isAtomic_of_encoded (encoded_of_pairs hrun)
    refine readFrom_joined ho (fun c hc => ?_) (splitOn_pairs hpne hatomic) hdecode
    refine isInPiece_of_mem_intercalate (List.forall_mem_map.mpr fun q hq => ?_) hc
    have hkey := hatomic q.1 (List.mem_flatMap.mpr ⟨q, hq, by simp⟩)
    have hvalue := hatomic q.2 (List.mem_flatMap.mpr ⟨q, hq, by simp⟩)
    refine List.forall_mem_append.mpr ⟨hkey.inPiece, ?_⟩
    exact List.forall_mem_cons.mpr ⟨by decide, hvalue.inPiece⟩

/-- What a defined variable shows can be read from the pieces of its text. -/
theorem readFrom_render {β : Type} (ho : o.Separates first sep) {i : Item β}
    (hdef : i.isDefined = true) (h : v.render o i = .ok s) :
    Shown.AreReadFrom o.named (v.shown i) (s.splitOn sep) := by
  cases i with
  | atom t => exact readFrom_atom ho (render_atom_eq_ok.mp h)
  | list ts =>
    have hne : ts ≠ [] := by simpa [Item.isDefined] using hdef
    exact readFrom_list ho hne (render_list_eq_ok.mp h).2
  | assoc pairs =>
    have hne : pairs.entries ≠ [] := by simpa [Item.isDefined] using hdef
    exact readFrom_assoc ho hne (render_assoc_eq_ok.mp h).2
  | bare value => exact absurd h render_bare_ne_ok

end VarSpec

/-! ## Expressions -/

namespace Expression

variable {β : Type} {look : Text → Binding β} {e : Expression} {o : Operator}
  {first sep : CodePoint} {s : Text}

/-- What variables show can be read from the pieces of their texts, variable by variable. -/
theorem readFrom_variables (ho : o.Separates first sep) {specs : List VarSpec}
    {texts : List (Option Text)} (h : specs.mapM (VarSpec.expand? look o) = .ok texts) :
    Shown.AreReadFrom o.named (specs.flatMap (VarSpec.shownBy look))
      ((texts.filterMap id).flatMap (List.splitOn sep)) := by
  -- a variable that is not defined adds no text and no piece
  induction specs generalizing texts with
  | nil =>
    obtain rfl := mapM_nil_eq_ok.mp h
    exact .nil
  | cons v specs ih =>
    obtain ⟨text?, texts, hv, hspecs, rfl⟩ := mapM_cons_eq_ok.mp h
    have hrest := ih hspecs
    rw [List.flatMap_cons]
    -- not bound, not defined, or written
    rcases VarSpec.expand?_eq_ok.mp hv with
      ⟨hlook, rfl⟩ | ⟨i, hlook, ⟨hdef, rfl⟩ | ⟨hdef, s, hs, rfl⟩⟩
    · simpa [VarSpec.shownBy, hlook] using hrest
    · simpa [VarSpec.shownBy, hlook, hdef] using hrest
    · simp only [VarSpec.shownBy, hlook, hdef, if_true, List.filterMap_cons, id, List.flatMap_cons]
      exact List.rel_append (VarSpec.readFrom_render ho hdef hs) hrest

/-- Where a variable is defined, there is a text. -/
theorem texts_ne_nil {specs : List VarSpec} {texts : List (Option Text)}
    (h : specs.mapM (VarSpec.expand? look o) = .ok texts) {v : VarSpec} {i : Item β}
    (hv : v ∈ specs) (hlook : look v.name.text = .item i) (hdef : i.isDefined = true) :
    texts.filterMap id ≠ [] := by
  induction specs generalizing texts with
  | nil => cases hv
  | cons u specs ih =>
    obtain ⟨text?, texts, hu, hspecs, rfl⟩ := mapM_cons_eq_ok.mp h
    -- the variable in question is here, or among the others
    rcases List.mem_cons.mp hv with rfl | hv
    · rcases VarSpec.expand?_eq_ok.mp hu with ⟨hnone, -⟩ | ⟨j, hj, ⟨hno, -⟩ | ⟨-, s, -, rfl⟩⟩
      · rw [hlook] at hnone
        cases hnone
      · rw [hlook] at hj
        cases hj
        rw [hdef] at hno
        cases hno
      · exact List.cons_ne_nil _ _
    · have hrest := ih hspecs hv
      cases text? with
      | none => exact hrest
      | some s => exact List.cons_ne_nil _ _

/-- An expansion begins as the operator says, and what the variables show can be read from the
pieces behind. -/
theorem readFrom_expand (ho : e.effectiveOperator.Separates first sep)
    (hdef : ∃ v ∈ e.specs, ∃ i, look v.name.text = .item i ∧ i.isDefined = true)
    (h : e.expand look = .ok s) :
    ∃ body, s = first :: body ∧
      Shown.AreReadFrom e.effectiveOperator.named (e.shown look) (body.splitOn sep) := by
  obtain ⟨-, texts, htexts, rfl⟩ := expand_eq_ok.mp h
  obtain ⟨v, hv, i, hlook, hi⟩ := hdef
  have hne := texts_ne_nil htexts hv hlook hi
  -- behind the first character stand the texts of the variables, joined by the separator
  refine ⟨[sep].intercalate (texts.filterMap id), ?_, ?_⟩
  · rw [Operator.join, if_neg hne, ho.first_eq, ho.separator_eq]
    rfl
  · rw [splitOn_intercalate_eq_flatMap sep _ hne]
    exact readFrom_variables ho htexts

end Expression

/-- The delimiting operators begin with their symbol, and their expansions can be cut. -/
theorem Operator.exists_separates {symbol : Char} (hsymbol : symbol ∈ ['/', ';', '?', '&'])
    {o : Operator} (ho : ofSymbol? [.scalar symbol] = some o) :
    ∃ sep, o.Separates (.scalar symbol) sep := by
  -- this is read off the table of the operators
  have htable : ∀ r ∈ registered,
      r.symbol ∈ ['/', ';', '?', '&'].map (fun c => [CodePoint.scalar c]) →
        ∃ sep ∈ "/;&".toText, r.first = r.symbol ∧ r.separator = [sep] ∧
          sep.isInPiece = false ∧ (r.ifEmpty = [] ∨ r.ifEmpty = "=".toText) ∧
          r.allowReserved = false := by decide
  obtain ⟨sep, -, hfirst, hsep, houtside, hempty, hencodes⟩ := of_ofSymbol? htable hsymbol ho
  rw [symbol_of_ofSymbol? ho] at hfirst
  exact ⟨sep, hfirst, hsep, houtside, hempty, hencodes⟩

/-- Looking up a name in the value of a context is looking it up in the context. -/
theorem Value.look_toValue (c : Context) : Value.look c.toValue = c.look := by
  obtain ⟨entries⟩ := c
  funext name
  unfold Value.look Context.look Context.toValue
  simp only [Value.entries?]
  -- the entries are the same, so the same one is found
  induction entries with
  | nil => rfl
  | cons e entries ih =>
    obtain ⟨k, i⟩ := e
    simp only [List.map_cons, Entries.get?]
    by_cases hk : (k == Value.text name) = true
    · simp only [hk, if_true]
    · simp only [hk]
      exact ih

/-- An expansion under one of the delimiting operators can be read back: behind the first
character, and cut at the separators, it has one piece for each text that the defined variables
show, and their bytes are decoded from it. -/
theorem Value.expandExpression_readBack (e : Expression) (symbol : Char) (o : Operator)
    (c : Context) (s : Text) (hsymbol : symbol ∈ ['/', ';', '?', '&'])
    (ho : Operator.ofSymbol? [.scalar symbol] = some o) (he : e.operator = some o)
    (hdef : ∃ v ∈ e.specs, ∃ i, c.look v.name.text = .item i ∧ i.isDefined = true)
    (h : Value.expandExpression (.node (.expression e)) c.toValue = .ok s) :
    ∃ first sep body, o.first = [first] ∧ o.separator = [sep] ∧ s = first :: body ∧
      List.Forall₂ (fun shown piece => shown.IsReadFrom o.named piece) (e.shown c.look)
        (body.splitOn sep) := by
  obtain ⟨sep, hsep⟩ := Operator.exists_separates hsymbol ho
  -- the operator of the expression is the one that it is expanded with
  have heff : e.effectiveOperator = o := by
    rw [Expression.effectiveOperator, he]
    rfl
  have hexpand : e.expand c.look = .ok s := by
    rw [← Value.look_toValue c]
    exact mapError_eq_ok.mp h
  rw [← heff] at hsep ⊢
  obtain ⟨body, hs, hread⟩ := Expression.readFrom_expand hsep hdef hexpand
  exact ⟨.scalar symbol, sep, body, hsep.first_eq, hsep.separator_eq, hs, hread⟩

/-- Delimiters and percent signs in values, empty texts, a prefix, and a variable without
members. -/
theorem Value.expandExpression_readBack_mixed :
    ∃ (e : Expression) (c : Context),
      e.format = "{?x:2,l*,m*,n,u}".toText ∧
        e.shown c.look =
          [.single "x".toText "é&".toText, .single "l".toText [], .single "l".toText "a,b".toText,
            .pair "k=".toText [], .pair "%".toText "é".toText,
            .joined "n".toText ["a".toText, "b,c".toText]] ∧
        Value.expandExpression (.node (.expression e)) c.toValue =
          .ok "?x=%C3%A9%26&l=&l=a%2Cb&k%3D=&%25=%C3%A9&n=a,b%2Cc".toText ∧
        List.Forall₂ (fun shown piece => shown.IsReadFrom true piece) (e.shown c.look)
          ["x=%C3%A9%26".toText, "l=".toText, "l=a%2Cb".toText, "k%3D=".toText,
            "%25=%C3%A9".toText, "n=a,b%2Cc".toText] := by
  let x : VarSpec := ⟨⟨"x".toText, by decide⟩, some (.limit ⟨2, by decide⟩)⟩
  let o : Operator := .prefixing '?' '&' true "=".toText
  let e : Expression :=
    ⟨[x, ⟨⟨"l".toText, by decide⟩, some .explode⟩, ⟨⟨"m".toText, by decide⟩, some .explode⟩,
      ⟨⟨"n".toText, by decide⟩, none⟩, ⟨⟨"u".toText, by decide⟩, none⟩], some o, by decide⟩
  let c : Context :=
    ⟨[(.text "x".toText, .atom "é&b".toText), (.text "l".toText, .list [[], "a,b".toText]),
      (.text "m".toText, .assoc (.ofPairs [("k=".toText, []), ("%".toText, "é".toText)])),
      (.text "n".toText, .list ["a".toText, "b,c".toText]), (.text "u".toText, .list [])]⟩
  have hdef : ∃ v ∈ e.specs, ∃ i, c.look v.name.text = .item i ∧ i.isDefined = true :=
    ⟨x, List.mem_cons_self, .atom "é&b".toText, rfl, rfl⟩
  have hexpand : Value.expandExpression (.node (.expression e)) c.toValue =
      .ok "?x=%C3%A9%26&l=&l=a%2Cb&k%3D=&%25=%C3%A9&n=a,b%2Cc".toText := by decide +kernel
  obtain ⟨first, sep, body, -, hsep, hbody, hread⟩ :=
    Value.expandExpression_readBack e '?' o c _ (by decide) (by decide) rfl hdef hexpand
  cases hsep
  cases hbody
  -- the pieces are those between the ampersands
  have hsplit : List.splitOn (.scalar '&')
      "x=%C3%A9%26&l=&l=a%2Cb&k%3D=&%25=%C3%A9&n=a,b%2Cc".toText =
        ["x=%C3%A9%26".toText, "l=".toText, "l=a%2Cb".toText, "k%3D=".toText,
          "%25=%C3%A9".toText, "n=a,b%2Cc".toText] := by decide +kernel
  refine ⟨e, c, by decide, by decide +kernel, hexpand, ?_⟩
  rw [← hsplit]
  exact hread

end UriTemplate
