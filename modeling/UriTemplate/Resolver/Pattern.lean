import UriTemplate.Resolver.Reference
import UriTemplate.Value.Key

/-! # Patterns

The pattern of a configured template is its text with every reference replaced by the
pattern of the template that it names.  Patterns that are finished are kept, so that each is
made once.  The names that are being resolved form the path from the template that was
asked for to the current one; a reference to a name on the path closes a circle and is
refused.

The path only grows by configured names that are not yet on it, so that there are ever
fewer left (`pending_append_lt`), and the resolution ends. -/

namespace UriTemplate

/-- The configured templates: what stands under each name. -/
abbrev Config := Entries Value Value

/-- The finished patterns. -/
abbrev Patterns := Entries Value Text

namespace Config

/-- How many configured names are not on a path. -/
def pending (config : Config) (path : List Value) : Nat :=
  (config.filter fun e => !path.contains e.1).length

/-- A stricter filter that drops one more element leaves fewer. -/
theorem length_filter_lt {α : Type} {l : List α} {p q : α → Bool}
    (himp : ∀ x, p x = true → q x = true) (hex : ∃ x ∈ l, q x = true ∧ p x = false) :
    (l.filter p).length < (l.filter q).length := by
  induction l with
  | nil => simp at hex
  | cons a l ih =>
    have hle : (l.filter p).length ≤ (l.filter q).length := by
      rw [← List.countP_eq_length_filter, ← List.countP_eq_length_filter]
      exact List.countP_mono_left fun x _ => himp x
    obtain ⟨x, hx, hq, hp⟩ := hex
    rcases List.mem_cons.mp hx with rfl | hx
    · -- the first element is the one that only `q` keeps
      rw [List.filter_cons_of_pos hq, List.filter_cons_of_neg (by simp [hp])]
      exact Nat.lt_succ_of_le hle
    · -- it comes later, and the first element cannot make up for it
      have := ih ⟨x, hx, hq, hp⟩
      simp only [List.filter_cons]
      cases hpa : p a with
      | true => simpa [himp a hpa] using this
      | false =>
        cases hqa : q a with
        | true => simpa using Nat.lt_succ_of_lt this
        | false => simpa using this

/-- What is found under a name stands under a key that is the same. -/
theorem exists_of_get? {config : Config} {name v : Value} (h : config.get? name = some v) :
    ∃ e ∈ config, (e.1 == name) = true := by
  induction config with
  | nil => simp [Entries.get?] at h
  | cons e rest ih =>
    obtain ⟨k, w⟩ := e
    simp only [Entries.get?] at h
    split at h
    · next hk => exact ⟨(k, w), List.mem_cons_self, hk⟩
    · obtain ⟨e, he, hname⟩ := ih h
      exact ⟨e, List.mem_cons_of_mem _ he, hname⟩

/-- A path contains either all or none of the names that are the same. -/
theorem contains_congr {path : List Value} {a b : Value} (h : (a == b) = true) :
    path.contains a = path.contains b := by
  rw [Bool.eq_iff_iff]
  simp only [List.contains_eq_any_beq, List.any_eq_true]
  constructor
  · rintro ⟨x, hx, hax⟩
    exact ⟨x, hx, BEq.trans (BEq.symm h) hax⟩
  · rintro ⟨x, hx, hbx⟩
    exact ⟨x, hx, BEq.trans h hbx⟩

/-- A configured name that joins a path it was not on is no longer pending. -/
theorem pending_append_lt {config : Config} {path : List Value} {name v : Value}
    (h : config.get? name = some v) (hn : path.contains name = false) :
    config.pending (path ++ [name]) < config.pending path := by
  obtain ⟨e, he, hname⟩ := exists_of_get? h
  refine length_filter_lt (fun x hx => ?_) ⟨e, he, ?_, ?_⟩
  · -- what is not on the longer path is not on the path
    simp only [List.contains_eq_any_beq, List.any_append, Bool.not_or, Bool.and_eq_true] at hx ⊢
    exact hx.1
  · -- the entry of the name was pending
    rw [contains_congr hname, hn]
    rfl
  · -- and is so no longer
    simp [List.contains_eq_any_beq, hname]

/-- The refusal of a circle, from the path and the name that closes it.  Only texts can be
    shown in it. -/
def circle (path : List Value) (name : Value) : Fault :=
  match (path ++ [name]).mapM Value.text? with
  | some names => .invalid (.circularReference names)
  | none => .misuse .notText

/-- The number of steps that the text of a template asks for. -/
def steps : Value → Nat
  | .text t => t.segments.length + 1
  | _ => 0

mutual

/-- The pattern of a name that is referred to, and the finished patterns. -/
def referenced (config : Config) (path : List Value) (done : Patterns) (name : Text) :
    Except Fault (Text × Patterns) :=
  match done.get? (.text name) with
  | some pattern => .ok (pattern, done)
  | none =>
    if _hpath : path.contains (.text name) then .error (circle path (.text name))
    else match _hget : config.get? (.text name) with
      | none => .error (.config (.unknownTemplate name.quoted))
      | some v => resolve config path done (.text name) v
termination_by (config.pending path, 0)
decreasing_by exact .left _ _ (pending_append_lt _hget (by simpa using _hpath))

/-- The pattern of a configured template, and the finished patterns. -/
def resolve (config : Config) (path : List Value) (done : Patterns) (name value : Value) :
    Except Fault (Text × Patterns) :=
  match value with
  | .text t => do
    let (pattern, done) ← substitute config (path ++ [name]) done t.segments
    return (pattern, done.put name pattern)
  | value => do throw (.config (.notText (← name.inspect) (← value.inspect)))
termination_by (config.pending (path ++ [name]), steps value)
decreasing_by exact .right _ (by simp [steps])

/-- A text with its references replaced, and the finished patterns. -/
def substitute (config : Config) (path : List Value) (done : Patterns) :
    List Segment → Except Fault (Text × Patterns)
  | [] => .ok ([], done)
  | .plain c :: rest => do
    let (pattern, done) ← substitute config path done rest
    return (c :: pattern, done)
  | .reference name :: rest => do
    let (inner, done) ← referenced config path done name
    -- what the reference has finished is there for the rest of the text
    let (pattern, done) ← substitute config path done rest
    return (inner ++ pattern, done)
termination_by segments => (config.pending path, segments.length)

end

end Config

end UriTemplate
