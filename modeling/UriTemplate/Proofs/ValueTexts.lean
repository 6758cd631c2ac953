import UriTemplate.Proofs.Runs
import UriTemplate.Value.Key

/-!
# Keys and inspection forms of values

A configuration can have names and templates of any type.  Two facts about values say how far that
reaches: nothing but a text is looked up as a text (`Value.eq_text_of_beq`), and showing a value in
a message fails in two ways only (`Value.inspect_shows`).
-/

namespace UriTemplate

namespace Value

/-! ## Keys -/

/-- The key of a loose operator is that of its symbol behind its mark, unless the symbol is a
text. -/
theorem operatorKey_eq_map {token : Text → KeyToken} {mark : Key} {o : LooseOperator Value}
    (h : ∀ t, o.symbol ≠ text t) : operatorKey token mark o = (key o.symbol).map (mark ++ ·) := by
  obtain ⟨symbol, _, _, _, _, _, _⟩ := o
  cases symbol with
  | text t => exact absurd rfl (h t)
  | _ => rfl

/-- The key of a loose operator is a token of its own, or it begins with its mark. -/
theorem operatorKey_eq_ok {token : Text → KeyToken} {mark : Key} {o : LooseOperator Value} {x : Key}
    (h : operatorKey token mark o = .ok x) : (∃ t, x = [token t]) ∨ ∃ ks, x = mark ++ ks := by
  by_cases htext : ∃ t, o.symbol = text t
  · left
    obtain ⟨symbol, _, _, _, _, _, _⟩ := o
    obtain ⟨t, rfl : symbol = text t⟩ := htext
    cases h
    exact ⟨t, rfl⟩
  · right
    rw [operatorKey_eq_map (not_exists.mp htext)] at h
    obtain ⟨ks, -, hks⟩ := map_eq_ok.mp h
    exact ⟨ks, hks.symm⟩

/-- Only a text is the same key as a text. -/
theorem eq_text_of_beq {k : Value} {n : Text} (h : (k == text n) = true) : k = text n := by
  obtain ⟨x, hk, hn, -⟩ := beq_iff.mp h
  cases hn
  -- the keys of all other kinds begin with another token
  cases k with
  | text t =>
    cases hk
    rfl
  -- a float or a node comes in several forms, each with a token of its own
  | float x => cases x <;> cases hk
  | node m => cases m <;> cases hk
  | item i =>
    cases i with
    | bare v =>
      obtain ⟨ks, -, hks⟩ := map_eq_ok.mp hk
      cases hks
    | _ => cases hk
  | tuple vs =>
    obtain ⟨ks, -, hks⟩ := map_eq_ok.mp hk
    cases hks
  | looseTemplate vs =>
    obtain ⟨ks, -, hks⟩ := map_eq_ok.mp hk
    cases hks
  | looseOperator o =>
    obtain ⟨t, ht⟩ | ⟨ks, hks⟩ := operatorKey_eq_ok hk
    · cases ht
    · cases hks
  | looseExpression specs o =>
    obtain ⟨t, ht⟩ | ⟨ks, hks⟩ := operatorKey_eq_ok hk
    · cases ht
    · cases hks
  | _ => cases hk

/-! ## Inspection forms -/

/-- Something cannot be shown: an integer or a prefix length in it has too many digits, or an item
in it leaves open how it looks. -/
def IsUnshown (f : Fault) : Prop := f = .misuse .oversized ∨ f = .misuse .abstract

/-- Showing something fails in no other way. -/
def Shows {α : Type} (x : Except Fault α) : Prop := ∀ f, x = .error f → IsUnshown f

namespace Shows

variable {α γ : Type} {x : Except Fault α}

/-- What is there is shown. -/
theorem ok (a : α) : Shows (.ok a) := nofun

/-- What is shown can be put into a longer text. -/
theorem map (h : Shows x) (f : α → γ) : Shows (x.map f) :=
  fun e he => h e (map_eq_error.mp he)

/-- Showing two things fails as showing one of them does. -/
theorem bind {f : α → Except Fault γ} (h : Shows x) (hf : ∀ a, Shows (f a)) :
    Shows (x >>= f) := by
  intro e he
  obtain hx | ⟨a, -, ha⟩ := bind_eq_error.mp he
  · exact h e hx
  · exact hf a e ha

end Shows

/-- An integer is written, or it has too many digits. -/
theorem intText_shows (n : Int) : Shows (intText n) := by
  intro f hf
  unfold intText at hf
  split at hf
  · cases hf
  · cases hf
    exact .inl rfl

/-- Prefix lengths are written, or one of them has too many digits. -/
theorem checkLengths_shows (areWritable : Bool) : Shows (checkLengths areWritable) := by
  cases areWritable
  · rintro f ⟨⟩
    exact .inl rfl
  · exact .ok ()

/-- Of the items only a bare one leaves open how it looks. -/
theorem inspectItem_shows (i : Item Value) : Shows (inspectItem i) := by
  cases i with
  | bare v =>
    rintro f ⟨⟩
    exact .inr rfl
  | atom t => exact .ok _
  | list ts => exact .ok _
  | assoc pairs => exact .ok _

/-- A value and the values in it are shown, or fail to be shown. -/
theorem inspections_show :
    (∀ v : Value, Shows v.inspect) ∧ (∀ o, Shows (inspectOperator o)) ∧
      (∀ bs, Shows (inspectBindings bs)) ∧ (∀ es, Shows (inspectEntries es)) ∧
      ∀ vs, Shows (inspectAll vs) := by
  refine inspect.mutual_induct (fun v => Shows v.inspect) (fun o => Shows (inspectOperator o))
    (fun bs => Shows (inspectBindings bs)) (fun es => Shows (inspectEntries es))
    (fun vs => Shows (inspectAll vs))
    -- the kinds of values
    (.ok _) (fun _ => .ok _) (fun n => ?_) (fun _ => .ok _) (fun _ => .ok _) (fun _ => .ok _)
    (fun _ h => h.map _) (fun _ h => h.map _) (fun _ h => h.map _) (fun _ h => h.map _)
    inspectItem_shows (fun _ h => h.map _) (fun n => ?_) (.ok _) (fun _ => .ok _) (fun _ h => h)
    (fun specs o h => ?_) (fun _ h => h.map _)
    -- members, entries and bindings
    (.ok _) (fun _ _ hv hvs => hv.bind fun _ => hvs.bind fun _ => .ok _)
    (.ok _) (fun _ _ _ hk hv hrest =>
      hk.bind fun _ => hv.bind fun _ => hrest.bind fun _ => .ok _)
    (.ok _) (fun _ i _ hk hrest =>
      hk.bind fun _ => (inspectItem_shows i).bind fun _ => hrest.bind fun _ => .ok _)
    (fun _ _ _ _ _ _ _ h => h.map _)
  · -- an integer, and a piece of a template or an expression with prefix lengths
    rw [inspect]
    exact intText_shows n
  · rw [inspect]
    exact (checkLengths_shows _).bind fun _ => .ok _
  · rw [inspect]
    exact (checkLengths_shows _).bind fun _ => h.bind fun _ => .ok _

/-- Showing a value fails in the two ways only. -/
theorem inspect_shows (v : Value) : Shows v.inspect := inspections_show.1 v

/-- An integer with too many digits is not shown. -/
theorem inspect_oversized {n : Nat} (hlong : Nat.pow 10 Text.digitLimit ≤ n) :
    (int n).inspect = .error (.misuse .oversized) := by
  have hn : ¬ (n : Int).natAbs < Nat.pow 10 Text.digitLimit := by
    rw [Int.natAbs_natCast]
    exact Nat.not_lt_of_le hlong
  rw [inspect]
  unfold intText Text.ofInt?
  rw [if_neg hn]

end Value

end UriTemplate
