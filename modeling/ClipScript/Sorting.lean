/-
# Stable order by a whole-number key

Two places put things in order: the slots of a pattern by position, and the
arguments of a command line by stage. In both, things with equal keys keep their
order, so the sort is by insertion from the right: an element goes before
everything in the sorted rest whose key is not smaller.
-/

set_option autoImplicit false

namespace ClipScript

variable {α : Type}

/-- An element put into a sorted list, before elements with an equal key. -/
def insertByKey (key : α → Int) (x : α) : List α → List α
  | [] => [x]
  | y :: ys => if key x ≤ key y then x :: y :: ys else y :: insertByKey key x ys

/-- **Stable sort** by a key. -/
def sortByKey (key : α → Int) : List α → List α
  | [] => []
  | x :: xs => insertByKey key x (sortByKey key xs)

/-- Inserting adds one item and loses none. -/
theorem insertByKey_perm (key : α → Int) (x : α) (xs : List α) :
    (insertByKey key x xs).Perm (x :: xs) := by
  induction xs with
  | nil => exact .refl _
  | cons y ys ih =>
    unfold insertByKey
    split
    · exact .refl _
    · exact (ih.cons y).trans (.swap x y ys)

/-- Sorting only changes the order. -/
theorem sortByKey_perm (key : α → Int) (xs : List α) : (sortByKey key xs).Perm xs := by
  induction xs with
  | nil => exact .refl _
  | cons x xs ih => exact (insertByKey_perm key x _).trans (ih.cons x)

/-- An item is put where the keys go on increasing. -/
theorem pairwise_insertByKey (key : α → Int) (x : α) {xs : List α}
    (h : xs.Pairwise fun y z => key y ≤ key z) :
    (insertByKey key x xs).Pairwise fun y z => key y ≤ key z := by
  induction xs with
  | nil => exact List.pairwise_singleton ..
  | cons y ys ih =>
    obtain ⟨hy, hys⟩ := List.pairwise_cons.1 h
    unfold insertByKey
    by_cases hle : key x ≤ key y
    · rw [if_pos hle]
      refine List.pairwise_cons.2 ⟨?_, h⟩
      intro z hz
      rcases List.mem_cons.1 hz with rfl | hz
      · exact hle
      · exact Int.le_trans hle (hy z hz)
    · rw [if_neg hle]
      refine List.pairwise_cons.2 ⟨?_, ih hys⟩
      intro z hz
      rcases List.mem_cons.1 ((insertByKey_perm key x ys).mem_iff.1 hz) with rfl | hz
      · omega
      · exact hy z hz

/-- Sorting leaves no larger key before a smaller one. -/
theorem pairwise_sortByKey (key : α → Int) (xs : List α) :
    (sortByKey key xs).Pairwise fun x y => key x ≤ key y := by
  induction xs with
  | nil => exact .nil
  | cons x xs ih => exact pairwise_insertByKey key x ih

/-- An item goes past smaller keys only, so among items of one key it is in front. -/
theorem filter_insertByKey {key : α → Int} {p : α → Bool} {k : Int}
    (h : ∀ x, p x = true → key x = k) (x : α) (xs : List α) :
    (insertByKey key x xs).filter p = (x :: xs).filter p := by
  induction xs with
  | nil => rfl
  | cons y ys ih =>
    unfold insertByKey
    by_cases hle : key x ≤ key y
    · rw [if_pos hle]
    · rw [if_neg hle, List.filter_cons, ih, List.filter_cons, List.filter_cons, List.filter_cons]
      by_cases hx : p x = true
      · have hy : ¬ p y = true := by
          intro hy
          have hkx := h x hx
          have hky := h y hy
          omega
        rw [if_neg hy, if_neg hy]
      · rw [if_neg hx, if_neg hx]

/-- **Sorting is stable:** items of one key stay in the order that they have. -/
theorem filter_sortByKey {key : α → Int} {p : α → Bool} {k : Int}
    (h : ∀ x, p x = true → key x = k) (xs : List α) :
    (sortByKey key xs).filter p = xs.filter p := by
  induction xs with
  | nil => rfl
  | cons x xs ih =>
    unfold sortByKey
    rw [filter_insertByKey h, List.filter_cons, List.filter_cons, ih]

/-- What is sorted already stays as it is. -/
theorem sortByKey_of_pairwise (key : α → Int) {xs : List α}
    (h : xs.Pairwise fun x y => key x ≤ key y) : sortByKey key xs = xs := by
  induction xs with
  | nil => rfl
  | cons x xs ih =>
    rw [List.pairwise_cons] at h
    rw [sortByKey, ih h.2]
    cases xs with
    | nil => rfl
    | cons y ys => simp [insertByKey, h.1 y (by simp)]

end ClipScript
