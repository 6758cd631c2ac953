import Mathlib.Data.List.Forall2

/-!
# Runs that can fail

Parsing, conversion and expansion run step by step and stop at the first error.  Such a run
succeeds just if all of its steps do, and otherwise fails as the first failing step does; these
lemmas take a run apart.
-/

namespace UriTemplate

variable {α β ε ε' : Type}

/-- A run succeeds if its first step does and the rest does behind it. -/
theorem bind_eq_ok {x : Except ε α} {f : α → Except ε β} {b : β} :
    (x >>= f) = .ok b ↔ ∃ a, x = .ok a ∧ f a = .ok b := by
  cases x with
  | error e => simp [bind, Except.bind]
  | ok a => simp [bind, Except.bind]

/-- A run of no steps gives its result. -/
theorem pure_eq_ok {a b : α} : (pure a : Except ε α) = .ok b ↔ a = b := by
  simp [pure, Except.pure]

/-- A mapped run gives what its result is mapped to. -/
theorem map_eq_ok {x : Except ε α} {f : α → β} {b : β} :
    x.map f = .ok b ↔ ∃ a, x = .ok a ∧ f a = b := by
  cases x with
  | error e => simp [Except.map]
  | ok a => simp [Except.map]

/-- A run that ends in a result maps what its first step gives. -/
theorem bind_pure_eq_map {x : Except ε α} {f : α → β} : (x >>= fun a => pure (f a)) = x.map f := by
  cases x with
  | error e => rfl
  | ok a => rfl

/-- A run that ends in a result succeeds just if its first step does. -/
theorem exists_bind_pure_eq_ok_iff {x : Except ε α} {f : α → β} :
    (∃ b, (x >>= fun a => pure (f a)) = .ok b) ↔ ∃ a, x = .ok a := by
  constructor
  · intro ⟨_, h⟩
    obtain ⟨a, ha, -⟩ := bind_eq_ok.mp h
    exact ⟨a, ha⟩
  · intro ⟨a, ha⟩
    exact ⟨f a, bind_eq_ok.mpr ⟨a, ha, rfl⟩⟩

/-- Mapping the result changes nothing about whether there is one. -/
theorem exists_map_eq_ok_iff {x : Except ε α} {f : α → β} :
    (∃ b, x.map f = .ok b) ↔ ∃ a, x = .ok a := by
  constructor
  · intro ⟨_, h⟩
    obtain ⟨a, ha, -⟩ := map_eq_ok.mp h
    exact ⟨a, ha⟩
  · intro ⟨a, ha⟩
    exact ⟨f a, map_eq_ok.mpr ⟨a, ha, rfl⟩⟩

/-- Nor does renaming the error. -/
theorem mapError_eq_ok {x : Except ε α} {f : ε → ε'} {a : α} :
    x.mapError f = .ok a ↔ x = .ok a := by
  cases x with
  | error e =>
    show Except.error (f e) = .ok a ↔ Except.error e = .ok a
    simp
  | ok a' =>
    show Except.ok a' = .ok a ↔ Except.ok a' = .ok a
    simp

/-- A pass over nothing succeeds. -/
theorem mapM_nil_eq_ok {f : α → Except ε β} {zs : List β} :
    ([] : List α).mapM f = .ok zs ↔ zs = [] := by
  rw [List.mapM_nil, pure_eq_ok]
  exact eq_comm

/-- A pass over a list succeeds if it does so at the first element and at the others. -/
theorem mapM_cons_eq_ok {f : α → Except ε β} {x : α} {xs : List α} {zs : List β} :
    (x :: xs).mapM f = .ok zs ↔
      ∃ y ys, f x = .ok y ∧ xs.mapM f = .ok ys ∧ zs = y :: ys := by
  simp only [List.mapM_cons, bind_eq_ok, pure_eq_ok]
  constructor
  · intro ⟨y, hy, ys, hys, hzs⟩
    exact ⟨y, ys, hy, hys, hzs.symm⟩
  · intro ⟨y, ys, hy, hys, hzs⟩
    exact ⟨y, hy, ys, hys, hzs.symm⟩

/-! ## Failing runs -/

/-- A run that fails has no result. -/
theorem ne_ok_of_eq_error {x : Except ε α} {e : ε} {a : α} (h : x = .error e) : x ≠ .ok a := by
  rw [h]
  exact nofun

/-- A run fails if its first step does, or if the rest fails behind it. -/
theorem bind_eq_error {x : Except ε α} {f : α → Except ε β} {e : ε} :
    (x >>= f) = .error e ↔ x = .error e ∨ ∃ a, x = .ok a ∧ f a = .error e := by
  cases x with
  | error e => simp [bind, Except.bind]
  | ok a => simp [bind, Except.bind]

/-- The same for a check, which has no other result than success. -/
theorem bind_check_eq_error {x : Except ε Unit} {f : Unit → Except ε β} {e : ε} :
    (x >>= f) = .error e ↔ x = .error e ∨ x = .ok () ∧ f () = .error e := by
  cases x with
  | error e => simp [bind, Except.bind]
  | ok a => simp [bind, Except.bind]

/-- A mapped run fails as it did before. -/
theorem map_eq_error {x : Except ε α} {f : α → β} {e : ε} :
    x.map f = .error e ↔ x = .error e := by
  cases x with
  | error e => simp [Except.map]
  | ok a => simp [Except.map]

/-- A run whose error is renamed fails under the new name. -/
theorem mapError_eq_error {x : Except ε α} {f : ε → ε'} {e' : ε'} :
    x.mapError f = .error e' ↔ ∃ e, x = .error e ∧ f e = e' := by
  cases x with
  | error e =>
    show Except.error (f e) = .error e' ↔ _
    simp
  | ok a =>
    show Except.ok a = .error e' ↔ _
    simp

/-- A run of no steps cannot fail. -/
theorem pure_ne_error {a : α} {e : ε} : (pure a : Except ε α) ≠ .error e := by
  simp [pure, Except.pure]

/-- The first element of a list at which a step fails. -/
structure FirstFails (f : α → Except ε β) (xs pre : List α) (x : α) (post : List α) (e : ε) :
    Prop where
  split : xs = pre ++ x :: post
  before : ∀ y ∈ pre, ∃ z, f y = .ok z
  fails : f x = .error e

/-- A step that fails at once is the first one that does. -/
theorem FirstFails.head {f : α → Except ε β} {x : α} {xs : List α} {e : ε} (h : f x = .error e) :
    FirstFails f (x :: xs) [] x xs e :=
  ⟨rfl, List.forall_mem_nil _, h⟩

/-- A step that succeeds in front leaves the first failure where it is. -/
theorem FirstFails.cons {f : α → Except ε β} {y x : α} {xs pre post : List α} {e : ε} {z : β}
    (hy : f y = .ok z) (h : FirstFails f xs pre x post e) :
    FirstFails f (y :: xs) (y :: pre) x post e :=
  ⟨by rw [h.split, List.cons_append], List.forall_mem_cons.mpr ⟨⟨z, hy⟩, h.before⟩, h.fails⟩

/-- A pass over a list fails as it does at the first element where it fails. -/
theorem firstFails_of_mapM_eq_error {f : α → Except ε β} {xs : List α} {e : ε}
    (h : xs.mapM f = .error e) : ∃ pre x post, FirstFails f xs pre x post e := by
  induction xs with
  | nil => cases h
  | cons x xs ih =>
    rw [List.mapM_cons] at h
    rcases bind_eq_error.mp h with hx | ⟨y, hy, hrest⟩
    · -- the first element fails, or the pass goes on behind it
      exact ⟨[], x, xs, .head hx⟩
    · rcases bind_eq_error.mp hrest with hxs | ⟨ys, -, hpure⟩
      · obtain ⟨pre, x', post, hfirst⟩ := ih hxs
        exact ⟨x :: pre, x', post, hfirst.cons hy⟩
      · exact absurd hpure pure_ne_error

/-- The same for a pass that is made for its checks alone. -/
theorem firstFails_of_forM_eq_error {f : α → Except ε Unit} {xs : List α} {e : ε}
    (h : xs.forM f = .error e) : ∃ pre x post, FirstFails f xs pre x post e := by
  induction xs with
  | nil => cases h
  | cons x xs ih =>
    -- a pass for checks is not unfolded by a lemma of the library in this form
    change (f x >>= fun _ => xs.forM f) = .error e at h
    rcases bind_eq_error.mp h with hx | ⟨y, hy, hxs⟩
    · exact ⟨[], x, xs, .head hx⟩
    · obtain ⟨pre, x', post, hfirst⟩ := ih hxs
      exact ⟨x :: pre, x', post, hfirst.cons hy⟩

/-- A pass that carries a state fails as it does at some element, behind those in front of it. -/
theorem exists_of_foldlM_eq_error {f : β → α → Except ε β} {xs : List α} {b : β} {e : ε}
    (h : xs.foldlM f b = .error e) :
    ∃ front x back b', xs = front ++ x :: back ∧ front.foldlM f b = .ok b' ∧ f b' x = .error e := by
  -- the state changes with every element, so that the failing one is found behind some state
  induction xs generalizing b with
  | nil => cases h
  | cons x xs ih =>
    rw [List.foldlM_cons] at h
    rcases bind_eq_error.mp h with hx | ⟨b₁, hx, hxs⟩
    · exact ⟨[], x, xs, b, rfl, rfl, hx⟩
    · obtain ⟨front, y, back, b', rfl, hfront, hy⟩ := ih hxs
      refine ⟨x :: front, y, back, b', rfl, ?_, hy⟩
      rw [List.foldlM_cons]
      exact bind_eq_ok.mpr ⟨b₁, hx, hfront⟩

/-- The first failure of a step is that of the pass. -/
theorem FirstFails.mapM_eq {f : α → Except ε β} {xs pre post : List α} {x : α} {e : ε}
    (h : FirstFails f xs pre x post e) : xs.mapM f = .error e := by
  obtain ⟨rfl, hbefore, hfails⟩ := h
  -- by the elements in front, which are passed over one by one
  induction pre with
  | nil =>
    rw [List.nil_append, List.mapM_cons, hfails]
    rfl
  | cons y pre ih =>
    rw [List.forall_mem_cons] at hbefore
    obtain ⟨z, hz⟩ := hbefore.1
    rw [List.cons_append, List.mapM_cons, hz, ih hbefore.2]
    rfl

/-- The same for checks. -/
theorem FirstFails.forM_eq {f : α → Except ε Unit} {xs pre post : List α} {x : α} {e : ε}
    (h : FirstFails f xs pre x post e) : xs.forM f = .error e := by
  obtain ⟨rfl, hbefore, hfails⟩ := h
  induction pre with
  | nil => exact bind_eq_error.mpr (.inl hfails)
  | cons y pre ih =>
    rw [List.forall_mem_cons] at hbefore
    obtain ⟨z, hz⟩ := hbefore.1
    exact bind_eq_error.mpr (.inr ⟨z, hz, ih hbefore.2⟩)

/-- A pass succeeds if its step does so everywhere. -/
theorem exists_mapM_eq_ok_iff {f : α → Except ε β} {xs : List α} :
    (∃ ys, xs.mapM f = .ok ys) ↔ ∀ x ∈ xs, ∃ y, f x = .ok y := by
  induction xs with
  | nil => exact ⟨fun _ => List.forall_mem_nil _, fun _ => ⟨[], mapM_nil_eq_ok.mpr rfl⟩⟩
  | cons x xs ih =>
    -- both sides split into the first element and the others
    rw [List.forall_mem_cons, ← ih]
    constructor
    · intro ⟨_, h⟩
      obtain ⟨y, ys, hy, hys, -⟩ := mapM_cons_eq_ok.mp h
      exact ⟨⟨y, hy⟩, ys, hys⟩
    · intro ⟨⟨y, hy⟩, ys, hys⟩
      exact ⟨y :: ys, mapM_cons_eq_ok.mpr ⟨y, ys, hy, hys, rfl⟩⟩

/-- A pass with a step that has no result has a first one. -/
theorem exists_firstFails {f : α → Except ε β} {xs : List α}
    (h : ∃ x ∈ xs, ¬ ∃ y, f x = .ok y) : ∃ pre x post e, FirstFails f xs pre x post e := by
  -- the pass itself finds the first failure, and it cannot succeed past the given one
  cases hrun : xs.mapM f with
  | error e =>
    obtain ⟨pre, x, post, hfirst⟩ := firstFails_of_mapM_eq_error hrun
    exact ⟨pre, x, post, e, hfirst⟩
  | ok ys =>
    obtain ⟨x, hx, hno⟩ := h
    exact absurd (exists_mapM_eq_ok_iff.mp ⟨ys, hrun⟩ x hx) hno

/-- A pass of checks succeeds if each of them does. -/
theorem forM_eq_ok_iff {f : α → Except ε Unit} {xs : List α} :
    xs.forM f = .ok () ↔ ∀ x ∈ xs, f x = .ok () := by
  induction xs with
  | nil => exact ⟨fun _ => List.forall_mem_nil _, fun _ => rfl⟩
  | cons x xs ih =>
    change (f x >>= fun _ => xs.forM f) = .ok () ↔ _
    rw [List.forall_mem_cons, bind_eq_ok, ← ih]
    exact ⟨fun ⟨_, hx, hxs⟩ => ⟨hx, hxs⟩, fun ⟨hx, hxs⟩ => ⟨(), hx, hxs⟩⟩

/-- A pass over two lists succeeds if it does so over each of them. -/
theorem mapM_append_eq_ok {f : α → Except ε β} {xs ys : List α} {zs : List β} :
    (xs ++ ys).mapM f = .ok zs ↔
      ∃ as bs, xs.mapM f = .ok as ∧ ys.mapM f = .ok bs ∧ zs = as ++ bs := by
  simp only [List.mapM_append, bind_eq_ok, pure_eq_ok]
  constructor
  · intro ⟨as, has, bs, hbs, hzs⟩
    exact ⟨as, bs, has, hbs, hzs.symm⟩
  · intro ⟨as, bs, has, hbs, hzs⟩
    exact ⟨as, has, bs, hbs, hzs.symm⟩

/-- It fails as it does over the first one, or as it does over the second one behind it. -/
theorem mapM_append_eq_error {f : α → Except ε β} {xs ys : List α} {e : ε} :
    (xs ++ ys).mapM f = .error e ↔
      xs.mapM f = .error e ∨ ∃ as, xs.mapM f = .ok as ∧ ys.mapM f = .error e := by
  simp only [List.mapM_append, bind_eq_error, pure_ne_error, and_false, exists_false, or_false]

/-- Checks over two lists succeed if they do over each of them. -/
theorem forM_append_eq_ok {f : α → Except ε Unit} {xs ys : List α} :
    (xs ++ ys).forM f = .ok () ↔ xs.forM f = .ok () ∧ ys.forM f = .ok () := by
  simp only [forM_eq_ok_iff, List.forall_mem_append]

/-- They fail over the first one, or over the second one behind it. -/
theorem forM_append_eq_error {f : α → Except ε Unit} {xs ys : List α} {e : ε} :
    (xs ++ ys).forM f = .error e ↔
      xs.forM f = .error e ∨ xs.forM f = .ok () ∧ ys.forM f = .error e := by
  have happend : (xs ++ ys).forM f = (do xs.forM f; ys.forM f) := List.forM_append
  rw [happend, bind_check_eq_error]

/-! ## Both endings -/

/-- A run ends in a result with one property, or in an error with another. -/
def Ends (P : α → Prop) (Q : ε → Prop) : Except ε α → Prop
  | .ok a => P a
  | .error e => Q e

namespace Ends

variable {P : α → Prop} {P' : β → Prop} {Q : ε → Prop} {x : Except ε α}

/-- What is known of the endings holds of the result. -/
theorem ok {a : α} (h : Ends P Q x) (hx : x = .ok a) : P a := by
  rw [hx] at h
  exact h

/-- It holds of the error as well. -/
theorem error {e : ε} (h : Ends P Q x) (hx : x = .error e) : Q e := by
  rw [hx] at h
  exact h

/-- Both properties can be weakened. -/
theorem imp {P₁ : α → Prop} {Q₁ : ε → Prop} (h : Ends P Q x) (hP : ∀ a, P a → P₁ a)
    (hQ : ∀ e, Q e → Q₁ e) : Ends P₁ Q₁ x := by
  cases x with
  | error e => exact hQ e h
  | ok a => exact hP a h

/-- What goes on from a result may use what is known of it. -/
theorem bind {f : α → Except ε β} (h : Ends P Q x) (hf : ∀ a, P a → Ends P' Q (f a)) :
    Ends P' Q (x >>= f) := by
  cases x with
  | error e => exact h
  | ok a => exact hf a h

/-- Two things that are known of both endings are known together. -/
theorem and {P₁ : α → Prop} {Q₁ : ε → Prop} (h : Ends P Q x) (h₁ : Ends P₁ Q₁ x) :
    Ends (fun a => P a ∧ P₁ a) (fun e => Q e ∧ Q₁ e) x := by
  cases x with
  | error e => exact ⟨h, h₁⟩
  | ok a => exact ⟨h, h₁⟩

/-- Errors that are renamed keep their property under the new name. -/
theorem mapError {g : ε → ε'} {Q' : ε' → Prop} (h : Ends P Q x) (hQ : ∀ e, Q e → Q' (g e)) :
    Ends P Q' (x.mapError g) := by
  cases x with
  | error e => exact hQ e h
  | ok a => exact h

/-- A pass ends well if every step does behind the elements in front of it. -/
theorem foldlM {f : β → α → Except ε β} {P : List α → β → Prop} {xs : List α} {b : β}
    (hstep : ∀ front x back b, xs = front ++ x :: back → P front b →
      Ends (P (front ++ [x])) Q (f b x))
    (h : P [] b) : Ends (P xs) Q (xs.foldlM f b) := by
  -- the induction is on what is left behind the elements in front
  suffices hrest : ∀ back front b, xs = front ++ back → P front b →
      Ends (P xs) Q (back.foldlM f b) from hrest xs [] b rfl h
  -- the elements in front are no longer seen by the fold, so that they are carried along here
  intro back
  induction back with
  | nil =>
    intro front b hsplit hfront
    rw [List.append_nil] at hsplit
    rw [hsplit]
    exact hfront
  | cons x back ih =>
    intro front b hsplit hfront
    rw [List.foldlM_cons]
    refine (hstep front x back b hsplit hfront).bind fun b' hb' => ?_
    exact ih (front ++ [x]) b' (by rw [hsplit, List.append_assoc, List.singleton_append]) hb'

end Ends

/-! ## Results of passes -/

/-- What holds of every result of a step holds of all results of a pass. -/
theorem forall_of_mapM_eq_ok {f : α → Except ε β} {P : β → Prop}
    (hf : ∀ x y, f x = .ok y → P y) {xs : List α} {ys : List β} (h : xs.mapM f = .ok ys) :
    ∀ y ∈ ys, P y := by
  induction xs generalizing ys with
  | nil =>
    obtain rfl := mapM_nil_eq_ok.mp h
    exact List.forall_mem_nil _
  | cons x xs ih =>
    obtain ⟨y, ys, hy, hys, rfl⟩ := mapM_cons_eq_ok.mp h
    exact List.forall_mem_cons.mpr ⟨hf x y hy, ih hys⟩

/-- A pass that succeeds gives a result for each element. -/
theorem forall₂_of_mapM_eq_ok {f : α → Except ε β} {xs : List α} {ys : List β}
    (h : xs.mapM f = .ok ys) : List.Forall₂ (fun x y => f x = .ok y) xs ys := by
  induction xs generalizing ys with
  | nil =>
    obtain rfl := mapM_nil_eq_ok.mp h
    exact .nil
  | cons x xs ih =>
    obtain ⟨y, ys, hy, hys, rfl⟩ := mapM_cons_eq_ok.mp h
    exact .cons hy (ih hys)

/-- A result for each element makes a pass that succeeds. -/
theorem mapM_eq_ok_of_forall₂ {f : α → Except ε β} {xs : List α} {ys : List β}
    (h : List.Forall₂ (fun x y => f x = .ok y) xs ys) : xs.mapM f = .ok ys := by
  induction h with
  | nil => rfl
  | cons hy _ ih => exact mapM_cons_eq_ok.mpr ⟨_, _, hy, ih, rfl⟩

/-- A pass sees of its step only what it does at the elements. -/
theorem mapM_congr {f g : α → Except ε β} {xs : List α} (h : ∀ x ∈ xs, f x = g x) :
    xs.mapM f = xs.mapM g := by
  induction xs with
  | nil => rfl
  | cons x xs ih =>
    rw [List.mapM_cons, List.mapM_cons, h x List.mem_cons_self,
      ih fun y hy => h y (List.mem_cons_of_mem _ hy)]

/-- A pass goes on from what a pass in front of it has found. -/
theorem mapM_bind_of_mapM_eq_ok {γ : Type} {f : α → Except ε β} {g : β → Except ε γ}
    {xs : List α} {ys : List β} (h : xs.mapM f = .ok ys) :
    xs.mapM (fun x => f x >>= g) = ys.mapM g := by
  induction xs generalizing ys with
  | nil =>
    obtain rfl := mapM_nil_eq_ok.mp h
    rfl
  | cons x xs ih =>
    obtain ⟨y, ys, hy, hys, rfl⟩ := mapM_cons_eq_ok.mp h
    rw [List.mapM_cons, List.mapM_cons, ih hys, hy]
    rfl

/-- Errors can be renamed at every step or behind the pass. -/
theorem mapError_mapM {f : α → Except ε β} {g : ε → ε'} {xs : List α} :
    (xs.mapM f).mapError g = xs.mapM fun x => (f x).mapError g := by
  induction xs with
  | nil => rfl
  | cons x xs ih =>
    rw [List.mapM_cons, List.mapM_cons, ← ih]
    -- a failing step ends both sides, and otherwise the rest of the pass decides
    cases f x with
    | error e => rfl
    | ok y =>
      cases xs.mapM f with
      | error e => rfl
      | ok ys => rfl

/-- Results can be mapped at every step or behind the pass. -/
theorem map_mapM {γ : Type} {f : α → Except ε β} {g : β → γ} {xs : List α} :
    (xs.mapM f).map (List.map g) = xs.mapM fun x => (f x).map g := by
  induction xs with
  | nil => rfl
  | cons x xs ih =>
    rw [List.mapM_cons, List.mapM_cons, ← ih]
    cases f x with
    | error e => rfl
    | ok y =>
      cases xs.mapM f with
      | error e => rfl
      | ok ys => rfl

/-- So a result that is made of mapped results is made of those of a pass that maps them. -/
theorem mapM_bind_pure_map {γ δ : Type} {f : α → Except ε β} {g : β → γ} {h : List γ → δ}
    {xs : List α} :
    (xs.mapM f >>= fun ys => pure (h (ys.map g))) = (xs.mapM fun x => (f x).map g).map h := by
  rw [← map_mapM]
  cases xs.mapM f with
  | error e => rfl
  | ok ys => rfl

/-- Results are mapped and errors are renamed independently of each other. -/
theorem mapError_map {γ : Type} {f : α → γ} {g : ε → ε'} {x : Except ε α} :
    (x.map f).mapError g = (x.mapError g).map f := by
  cases x with
  | error e => rfl
  | ok a => rfl

/-- Errors of two steps are renamed step by step. -/
theorem mapError_bind {f : α → Except ε β} {g : ε → ε'} {x : Except ε α} :
    (x >>= f).mapError g = x.mapError g >>= fun a => (f a).mapError g := by
  cases x with
  | error e => rfl
  | ok a => rfl

/-- A pass whose step never fails is a map. -/
theorem mapM_eq_ok_map {f : α → Except ε β} {g : α → β} {xs : List α}
    (h : ∀ x ∈ xs, f x = .ok (g x)) : xs.mapM f = .ok (xs.map g) := by
  rw [mapM_congr h]
  exact List.mapM_pure

end UriTemplate
