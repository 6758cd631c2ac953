import UriTemplate.Text.Word

/-! # References

The text of a configured template may refer to other templates: a name of word characters
and dots, between angle brackets, stands for the text of the template of that name.  Angle
brackets around anything else are plain text. -/

namespace UriTemplate

/-- A piece of the text of a configured template. -/
inductive Segment where
  | plain (c : CodePoint)
  | reference (name : Text)
deriving DecidableEq

/-- The characters of the name in a reference. -/
def CodePoint.isReferenceChar (c : CodePoint) : Bool := c.isWord || c == .scalar '.'

/-- The name of a reference that starts here and the text behind it, from the text behind
    the opening bracket. -/
def Text.reference? (t : Text) : Option (Text × Text) :=
  match t.dropWhile CodePoint.isReferenceChar with
  | .scalar '>' :: rest =>
    let name := t.takeWhile CodePoint.isReferenceChar
    if name = [] then none else some (name, rest)
  | _ => none

/-- Behind a reference there is less text than behind its opening bracket. -/
theorem Text.reference?_length_lt {t name rest : Text} (h : t.reference? = some (name, rest)) :
    rest.length < t.length := by
  unfold Text.reference? at h
  split at h
  · next tail hdrop =>
    simp only at h
    split at h
    · cases h
    · cases h
      -- the closing bracket is part of what follows the name
      have hle := (List.dropWhile_sublist CodePoint.isReferenceChar (l := t)).length_le
      rw [hdrop, List.length_cons] at hle
      omega
  · cases h

/-- The pieces of a text, from the left. -/
def Text.segments : Text → List Segment
  | [] => []
  | c :: t =>
    if c = .scalar '<' then
      match _h : Text.reference? t with
      | some (name, rest) => .reference name :: segments rest
      | none => .plain c :: segments t
    else .plain c :: segments t
termination_by t => t.length
decreasing_by
  · have := Text.reference?_length_lt _h
    simp only [List.length_cons]
    omega
  · simp
  · simp

end UriTemplate
