import UriTemplate.Proofs.Runs
import UriTemplate.Value.Order
import Mathlib.Data.List.Chain
import Mathlib.Data.List.InsertIdx

/-!
# Sorting texts

Texts are totally ordered by their code points (`Text.le_total`, `Text.le_trans`).  Sorting
texts never fails, and gives the same texts in increasing order (`Value.sort_texts`): the run at
the front is in order by itself, and the place that is found for a text by bisection lies behind
all texts that are not greater and before all that are not less (`Brackets`).
-/

namespace UriTemplate

/-! ## The order -/

namespace Text

/-- Any two texts are comparable. -/
theorem le_total (s t : Text) : s.le t = true ∨ t.le s = true := by
  induction s generalizing t with
  | nil => exact .inl rfl
  | cons a s ih =>
    -- a text is not above what it begins, and otherwise the first characters decide unless they
    -- agree
    cases t with
    | nil => exact .inr rfl
    | cons b t =>
      simp only [le, Bool.or_eq_true, decide_eq_true_eq, Bool.and_eq_true, beq_iff_eq]
      rcases Nat.lt_trichotomy a.toNat b.toNat with hlt | heq | hgt
      · exact .inl (.inl hlt)
      · exact (ih t).imp (fun h => .inr ⟨heq, h⟩) fun h => .inr ⟨heq.symm, h⟩
      · exact .inr (.inl hgt)

/-- The order of texts is transitive. -/
theorem le_trans {s t u : Text} (hst : s.le t = true) (htu : t.le u = true) : s.le u = true := by
  induction s generalizing t u with
  | nil => rfl
  | cons a s ih =>
    -- the first difference of either pair decides, whichever comes first
    cases t with
    | nil => cases hst
    | cons b t =>
      cases u with
      | nil => cases htu
      | cons c u =>
        simp only [le, Bool.or_eq_true, decide_eq_true_eq, Bool.and_eq_true, beq_iff_eq]
          at hst htu ⊢
        rcases hst with hab | ⟨hab, hst⟩
        · rcases htu with hbc | ⟨hbc, -⟩
          · exact .inl (by omega)
          · exact .inl (by omega)
        · rcases htu with hbc | ⟨hbc, htu⟩
          · exact .inl (by omega)
          · exact .inr ⟨by omega, ih hst htu⟩

/-- Of two texts the one that is not below the other is above it. -/
theorem le_of_not_le {s t : Text} (h : s.le t = false) : t.le s = true := by
  rcases le_total s t with hle | hle
  · rw [h] at hle
    cases hle
  · exact hle

/-- Texts in increasing order. -/
def IsSorted (ts : List Text) : Prop := ts.Pairwise fun s t => s.le t = true

instance : Trans (fun s t : Text => s.le t = true) (fun s t => s.le t = true)
    (fun s t => s.le t = true) := ⟨le_trans⟩

end Text

namespace Value

open Text (IsSorted)

/-- One text comes before another just if the other is not below it. -/
theorem before_text (s t : Text) : (text s).before (text t) = .ok (!t.le s) := rfl

/-! ## The run at the front -/

/-- The run goes on as long as every text is related to the one in front of it as the first two
are. -/
theorem runFrom_texts (downwards : Bool) (last : Text) (ts : List Text) :
    ∃ run rest, ts = run ++ rest ∧
      runFrom downwards (text last) (ts.map text) = .ok (run.map text, rest.map text) ∧
      (last :: run).IsChain fun s t => s.le t = !downwards := by
  induction ts generalizing last with
  | nil => exact ⟨[], [], rfl, rfl, List.isChain_singleton last⟩
  | cons t ts ih =>
    rw [List.map_cons, runFrom, before_text]
    -- the next text belongs to the run just if it is related to the last one as they all are
    by_cases hnext : last.le t = !downwards
    · obtain ⟨run, rest, hsplit, hrun, hchain⟩ := ih t
      refine ⟨t :: run, rest, by rw [hsplit, List.cons_append], ?_,
        List.isChain_cons_cons.mpr ⟨hnext, hchain⟩⟩
      simp [bind, Except.bind, pure, Except.pure, hnext, hrun]
    · refine ⟨[], t :: ts, rfl, ?_, List.isChain_singleton last⟩
      have hend : (!last.le t) ≠ downwards := fun h => hnext (by rw [← h, Bool.not_not])
      simp [bind, Except.bind, pure, Except.pure, hend]

/-- A run upwards is sorted, and so is a run downwards from its end. -/
theorem isSorted_front {downwards : Bool} {run : List Text}
    (h : run.IsChain fun s t => s.le t = !downwards) :
    IsSorted (if downwards then run.reverse else run) := by
  cases downwards with
  | false =>
    have hup : run.IsChain fun s t => s.le t = true := h
    exact hup.pairwise
  | true =>
    have hback : run.IsChain fun s t => t.le s = true := h.imp fun _ _ hle => Text.le_of_not_le hle
    exact (List.isChain_reverse.mpr hback).pairwise

/-! ## Insertion -/

/-- The place of a text among sorted ones lies from `low` to `high`. -/
structure Brackets (us : List Text) (v : Text) (low high : Nat) : Prop where
  low_le : low ≤ high
  high_le : high ≤ us.length
  before : ∀ w ∈ us.take low, w.le v = true
  behind : ∀ w ∈ us.drop high, v.le w = true

/-- Where the text is less than the middle one, its place is not behind the middle. -/
theorem Brackets.left {us : List Text} {v : Text} {low high middle : Nat}
    (h : Brackets us v low high) (hsorted : IsSorted us) (hlow : low ≤ middle)
    (hm : middle < us.length) (hv : v.le us[middle] = true) : Brackets us v low middle := by
  refine ⟨hlow, Nat.le_of_lt hm, h.before, fun w hw => ?_⟩
  -- behind the middle stands the middle one itself, and what is sorted behind it
  rw [List.drop_eq_getElem_cons hm] at hw
  rcases List.mem_cons.mp hw with rfl | hw
  · exact hv
  · have hdrop := hsorted.drop (i := middle)
    rw [List.drop_eq_getElem_cons hm] at hdrop
    exact Text.le_trans hv (List.rel_of_pairwise_cons hdrop hw)

/-- Where it is not less, its place is behind the middle. -/
theorem Brackets.right {us : List Text} {v : Text} {low high middle : Nat}
    (h : Brackets us v low high) (hsorted : IsSorted us) (hhigh : middle < high)
    (hm : middle < us.length) (hv : us[middle].le v = true) :
    Brackets us v (middle + 1) high := by
  refine ⟨hhigh, h.high_le, fun w hw => ?_, h.behind⟩
  have htake : us.take (middle + 1) = us.take middle ++ [us[middle]] :=
    List.take_succ_eq_append_getElem hm
  have hsplit := hsorted.take (i := middle + 1)
  rw [htake] at hw hsplit
  -- in front of the place stand those before the middle, which are below it, and the middle one
  rcases List.mem_append.mp hw with hw | hw
  · exact Text.le_trans ((List.pairwise_append.mp hsplit).2.2 w hw _ List.mem_cons_self) hv
  · rw [List.mem_singleton.mp hw]
    exact hv

/-- Bisection ends at a place with no greater text before it and no smaller one behind it. -/
theorem placeAmong_texts {us : List Text} {v : Text} {low high : Nat} (hsorted : IsSorted us)
    (h : Brackets us v low high) :
    ∃ k, placeAmong (us.map text) (text v) low high = .ok k ∧ Brackets us v k k := by
  -- the induction is on the length of the bracket, which every comparison cuts in half
  induction hn : high - low using Nat.strongRecOn generalizing low high with
  | ind n ih =>
    rw [placeAmong]
    by_cases hlt : low < high
    · have hm : (low + high) / 2 < us.length := Nat.lt_of_lt_of_le (by omega) h.high_le
      have hget : (us.map text)[(low + high) / 2]? = some (text us[(low + high) / 2]) := by
        simp [hm]
      simp only [if_pos hlt, hget, before_text]
      cases hle : Text.le us[(low + high) / 2] v with
      | false =>
        have hleft := h.left hsorted (by omega) hm (Text.le_of_not_le hle)
        obtain ⟨k, hk⟩ := ih _ (by omega) hleft rfl
        exact ⟨k, by simpa [bind, Except.bind] using hk⟩
      | true =>
        have hright := h.right hsorted (by omega) hm hle
        obtain ⟨k, hk⟩ := ih _ (by omega) hright rfl
        exact ⟨k, by simpa [bind, Except.bind] using hk⟩
    · have heq : low = high := Nat.le_antisymm h.low_le (by omega)
      subst heq
      exact ⟨low, by rw [if_neg hlt], h⟩

/-- A text that is inserted at its place leaves the texts sorted. -/
theorem Brackets.isSorted_insertIdx {us : List Text} {v : Text} {k : Nat} (h : Brackets us v k k)
    (hsorted : IsSorted us) : IsSorted (us.insertIdx k v) := by
  obtain ⟨before, behind, rfl, rfl, hinsert⟩ :=
    List.exists_of_modifyTailIdx (List.cons v) h.high_le
  have hbefore := h.before
  have hbehind := h.behind
  rw [List.take_left] at hbefore
  rw [List.drop_left] at hbehind
  obtain ⟨hsorted₁, hsorted₂, hacross⟩ := List.pairwise_append.mp hsorted
  rw [List.insertIdx, hinsert, IsSorted, List.pairwise_append, List.pairwise_cons]
  -- the new text is related to both sides by its place, and the sides are related as before
  refine ⟨hsorted₁, ⟨hbehind, hsorted₂⟩, fun s hs t ht => ?_⟩
  rcases List.mem_cons.mp ht with rfl | ht
  · exact hbefore s hs
  · exact hacross s hs t ht

/-- Inserting a text into sorted ones. -/
theorem insertSorted_texts {us : List Text} (hsorted : IsSorted us) (v : Text) :
    ∃ us', insertSorted (us.map text) (text v) = .ok (us'.map text) ∧ us'.Perm (v :: us) ∧
      IsSorted us' := by
  have hall : Brackets us v 0 us.length :=
    ⟨Nat.zero_le _, Nat.le_refl _, by simp, by simp⟩
  obtain ⟨k, hplace, hk⟩ := placeAmong_texts hsorted hall
  refine ⟨us.insertIdx k v, ?_, List.perm_insertIdx v us hk.high_le,
    hk.isSorted_insertIdx hsorted⟩
  rw [insertSorted, List.length_map, hplace, List.map_insertIdx]
  rfl

/-- Inserting texts one after the other. -/
theorem foldlM_insertSorted_texts {us : List Text} (hsorted : IsSorted us) (ts : List Text) :
    ∃ us', (ts.map text).foldlM insertSorted (us.map text) = .ok (us'.map text) ∧
      us'.Perm (us ++ ts) ∧ IsSorted us' := by
  induction ts generalizing us with
  | nil => exact ⟨us, rfl, by rw [List.append_nil], hsorted⟩
  | cons t ts ih =>
    obtain ⟨us₁, hinsert, hperm₁, hsorted₁⟩ := insertSorted_texts hsorted t
    obtain ⟨us₂, hfold, hperm₂, hsorted₂⟩ := ih hsorted₁
    refine ⟨us₂, ?_, ?_, hsorted₂⟩
    · rw [List.map_cons, List.foldlM_cons]
      exact bind_eq_ok.mpr ⟨_, hinsert, hfold⟩
    · exact hperm₂.trans ((hperm₁.append_right ts).trans List.perm_middle.symm)

/-! ## The whole -/

/-- Sorting texts gives them in increasing order. -/
theorem sort_texts (ts : List Text) :
    ∃ us, sort (ts.map text) = .ok (us.map text) ∧ us.Perm ts ∧ IsSorted us := by
  match ts with
  | [] => exact ⟨[], rfl, .refl _, List.Pairwise.nil⟩
  | [t] => exact ⟨[t], rfl, .refl _, List.pairwise_singleton _ t⟩
  | s :: t :: ts =>
    obtain ⟨run, rest, hsplit, hrun, hchain⟩ := runFrom_texts (!s.le t) s (t :: ts)
    obtain ⟨us, hfold, hperm, hsorted⟩ := foldlM_insertSorted_texts (isSorted_front hchain) rest
    refine ⟨us, ?_, ?_, hsorted⟩
    · simp only [List.map_cons, sort, before_text] at hrun ⊢
      -- the front is turned around as a list of values, and was as a list of texts
      rw [show (if !s.le t then (s :: run).reverse else s :: run).map text =
        if !s.le t then (text s :: run.map text).reverse else text s :: run.map text by
          split <;> simp] at hfold
      simp only [bind, Except.bind, hrun]
      exact hfold
    · rw [hsplit, ← List.cons_append]
      refine hperm.trans (.append_right rest ?_)
      split
      · exact List.reverse_perm _
      · exact .refl _

end Value

end UriTemplate
