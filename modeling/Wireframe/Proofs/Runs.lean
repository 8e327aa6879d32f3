/-!
# Runs

Where a run of one kind ends is decided by the first thing of another kind. So a run in front of such
a thing, or of nothing, is found whole, and what stands behind that thing has no say in it.
-/

namespace Wireframe

variable {α : Type} {p : α → Bool}

theorem takeWhile_eq_nil {as : List α} (h : as.head?.any p = false) : as.takeWhile p = [] := by
  cases as with
  | nil => rfl
  | cons a as => exact List.takeWhile_cons_of_neg (by simpa using h)

/-- A run does not grow when another kind is put behind it. -/
theorem takeWhile_append_other (as : List α) {tail : List α} (ht : tail.head?.any p = false) :
    (as ++ tail).takeWhile p = as.takeWhile p := by
  rw [List.takeWhile_append]
  split
  next all =>
    have self : as.takeWhile p = as := (List.takeWhile_prefix p).eq_of_length all
    rw [takeWhile_eq_nil ht, List.append_nil, self]
  · rfl

/-- A run ends where another kind begins. -/
theorem takeWhile_run {run : List α} (tail : List α) (hr : ∀ a ∈ run, p a = true)
    (ht : tail.head?.any p = false) :
    (run ++ tail).takeWhile p = run ∧ (run ++ tail).dropWhile p = tail := by
  rw [List.takeWhile_append_of_pos hr, List.dropWhile_append_of_pos hr]
  cases tail with
  | nil => simp
  | cons a tail =>
    have ha : ¬ p a = true := by simpa using ht
    rw [List.takeWhile_cons_of_neg ha, List.dropWhile_cons_of_neg ha, List.append_nil]
    exact ⟨rfl, rfl⟩

/-- Behind a run stands another kind. -/
theorem head?_dropWhile (p : α → Bool) (as : List α) : (as.dropWhile p).head?.any p = false := by
  have other := List.head?_dropWhile_not p as
  cases h : as.dropWhile p with
  | nil => rfl
  | cons a more => simpa [h] using other

theorem head?_dropWhile_append (as : List α) {tail : List α} (ht : tail.head?.any p = false) :
    (as.dropWhile p ++ tail).head?.any p = false := by
  have other := head?_dropWhile p as
  cases h : as.dropWhile p with
  | nil => exact ht
  | cons a more => rwa [h] at other

/-- What is left behind a run. -/
theorem drop_takeWhile (p : α → Bool) (as : List α) :
    as.drop (as.takeWhile p).length = as.dropWhile p :=
  calc as.drop (as.takeWhile p).length
    _ = (as.takeWhile p ++ as.dropWhile p).drop (as.takeWhile p).length := by
      rw [List.takeWhile_append_dropWhile]
    _ = as.dropWhile p := List.drop_left

section Append

variable {as : List α} (bs : List α) (h : as.dropWhile p ≠ [])

include h

theorem dropWhile_append_of_ne_nil : (as ++ bs).dropWhile p = as.dropWhile p ++ bs := by
  rw [List.dropWhile_append, if_neg (by simpa using h)]

theorem takeWhile_append_of_ne_nil : (as ++ bs).takeWhile p = as.takeWhile p := by
  rw [List.takeWhile_append, if_neg]
  intro hl
  have parts := congrArg List.length (List.takeWhile_append_dropWhile (p := p) (l := as))
  rw [List.length_append, hl] at parts
  exact h (List.eq_nil_of_length_eq_zero (by omega))

end Append

end Wireframe
